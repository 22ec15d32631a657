import VirtualFs.Path.Basic

/-!
# The order of segments

Siblings of a mount graph stand in the order of their segments: the shorter one first, and of two
with equally many bytes the one whose bytes come first.
-/

namespace VirtualFs.Segment

/-- The order of siblings: number of bytes, then the bytes themselves. -/
def order (a b : Segment) : Ordering :=
  (compare (Path.byteLength a) (Path.byteLength b)).then (compare (Path.bytes a) (Path.bytes b))

end VirtualFs.Segment
