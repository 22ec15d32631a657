import VirtualFs.Path.Basic

/-!
# Faults

Situations in which the file system stops for good instead of answering, because one of its own
invariants is broken or it was called before it was set up.  A computation that may stop so is
`Checked`; errors that a caller can get are values of `Error` and no faults.
-/

namespace VirtualFs

/-- Why everything stopped. -/
inductive Fault where
  /-- A mount node was used by a number that names none. -/
  | danglingNode (id : Nat)
  /-- A mount node was added beside a sibling of the same segment. -/
  | nodeExists (segment : Segment)
  /-- A mount node was removed while it owned a driver. -/
  | pruningOwner
  /-- More mount nodes were removed than there are. -/
  | nodeCountUnderflow
  /-- A computation did not end within the number of steps that it can need. -/
  | boundExceeded
  /-- A reference was taken to a descriptor that has none left. -/
  | acquiringReleased (path : Path)
  /-- A descriptor was released that has no reference left. -/
  | releasedTwice (path : Path)
  /-- The last reference was given back to a descriptor that still has some. -/
  | restoringLive (path : Path)
  /-- A descriptor number queued as free has a slot that is not free. -/
  | queuedSlotTaken (fd : Nat)
  /-- A slot was used by an index outside its table. -/
  | slotOutOfRange (fd : Nat)
  /-- A table has more free descriptor numbers than slots. -/
  | usedUnderflow
  /-- A lock was taken by the execution that already holds it. -/
  | deadlock
  /-- An object was named that was never made, or no longer is. -/
  | unknownObject
  /-- The interrupt word was used before the processor's operations were registered. -/
  | processorMissing
  /-- The process interface was used before its operations were registered. -/
  | processOpsMissing
deriving DecidableEq, Repr

/-- The last words of a fault. -/
def Fault.message : Fault → String
  | danglingNode id => s!"vfs: dangling mount node NodeId({id})"
  | nodeExists segment => s!"vfs: mount node {Path.text segment} already exists"
  | pruningOwner => "vfs: pruning a node that owns a driver"
  | nodeCountUnderflow => "attempt to subtract with overflow"
  | boundExceeded => "vfs: bound exceeded"
  | acquiringReleased path => s!"vfs: acquiring a released descriptor for {Path.text path}"
  | releasedTwice path => s!"vfs: descriptor for {Path.text path} released twice"
  | restoringLive path => s!"vfs: restoring a live descriptor for {Path.text path}"
  | queuedSlotTaken fd => s!"vfs: fd {fd} in free queue is not free"
  | slotOutOfRange fd => s!"index out of bounds: {fd}"
  | usedUnderflow => "attempt to subtract with overflow"
  | deadlock => "vfs: lock taken twice"
  | unknownObject => "vfs: unknown object"
  | processorMissing => "sync: ArchOps not registered, call register_arch_ops first"
  | processOpsMissing => "vfs: VfsOps not registered"

/-- A computation that may stop with a fault. -/
abbrev Checked := Except Fault

end VirtualFs
