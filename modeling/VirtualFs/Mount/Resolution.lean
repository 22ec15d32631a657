import VirtualFs.Driver
import VirtualFs.Mount.Edit
import VirtualFs.Mount.Listing

/-!
# Resolving paths

Which driver serves a clean path, and with which part of it: the deepest driver on the path, with
what follows its mount point; or else, when the path is that of a node, the node itself, as a
directory.  Mounting and unmounting work on the driver at the very path.
-/

namespace VirtualFs.Mount

/-- Who serves a path. -/
inductive Resolution (ρ : Type) where
  /-- A driver, for the part of the path from byte position `offset` on. -/
  | driver (record : ρ) (offset : Nat)
  /-- The node at the path, which has no driver. -/
  | node
deriving DecidableEq, Repr

/-- The part of a clean path that its server is given: what follows the mount point, or all of the
path for a node. -/
def Resolution.relative {ρ : Type} (r : Resolution ρ) (clean : Path) : Path :=
  match r with
  | .driver _ offset => Path.tailFrom offset clean
  | .node => clean

namespace Graph

variable {ρ : Type}

/-- The deepest driver on a path, with the position at which the path goes on below it. -/
def serving? (g : Graph ρ) (clean : Path) : Option (ρ × Nat) := do
  let id ← g.find clean .driver
  let node ← g.node? id
  let record ← node.driver
  return (record, node.offset)

/-- Who serves a clean path. -/
def resolve (g : Graph ρ) (clean : Path) : Except Error (Resolution ρ) :=
  match g.serving? clean with
  | some (record, offset) => .ok (.driver record offset)
  | none => if (g.find clean .exact).isSome then .ok .node else .error .notFound

/-- The node at a clean path and the driver it owns. -/
def mounted? (g : Graph ρ) (clean : Path) : Option (NodeId × ρ) := do
  let id ← g.find clean .exact
  let node ← g.node? id
  let record ← node.driver
  return (id, record)

/-- A clean path is that of a node. -/
def contains (g : Graph ρ) (clean : Path) : Bool :=
  (g.find clean .exact).isSome

/-- Attach a driver at a clean path where none is mounted. -/
def mount (g : Graph ρ) (clean : Path) (record : ρ) : Checked (Edit ρ (Except Error NodeId)) :=
  if (g.mounted? clean).isSome then .ok ⟨g, [], .error .alreadyExists⟩
  else g.attach clean record

/-- Detach the driver at a clean path. -/
def unmount [DecidableEq ρ] (g : Graph ρ) (clean : Path) : Checked (Edit ρ (Except Error ρ)) :=
  match g.mounted? clean with
  | none => .ok ⟨g, [], .error .notFound⟩
  | some (id, record) => g.detach id record

/-- The entry of a directory that comes after a name: a directory if there are nodes below it, and
nothing after the last. -/
def entryAfter (g : Graph ρ) (dir : Path) (after : Option Segment) :
    Except Error (Option DirEntry) :=
  match g.find dir .exact with
  | none => .error .notFound
  | some id =>
    .ok ((g.childAfter id after).map fun child =>
      ⟨child.segment, if child.children.isEmpty then .file else .directory⟩)

end Graph

end VirtualFs.Mount
