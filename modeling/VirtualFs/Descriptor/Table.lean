import VirtualFs.Driver
import VirtualFs.Fault
import VirtualFs.Limits

/-!
# Descriptor tables

A process names its open files by small numbers, the slots of its descriptor table.  A table has a
fixed number of slots.  The numbers of the free ones wait in a queue: a number is taken from its
front and goes to its back when it becomes free again, so numbers are handed out in the order in
which they became free.

A slot from which a file is being closed is neither free nor open until the driver has answered.

A *descriptor* is one open file.  Several slots, of several tables, may hold the same one; how many
do is counted outside the tables.
-/

namespace VirtualFs

/-- One open file: where it was opened, the driver's handle, and the record of the driver. -/
structure Descriptor where
  id : Nat
  path : Path
  handle : Handle
  record : Record
deriving DecidableEq, Repr

/-- What an open slot holds. -/
structure FdEntry where
  descriptor : Descriptor
  flags : OpenFlags
  mode : UInt32
deriving DecidableEq, Repr

/-- A slot of a descriptor table. -/
inductive Slot where
  | free
  | opened (entry : FdEntry)
  /-- The file is being closed, and the driver has not answered. -/
  | closing
deriving DecidableEq, Repr

/-- A descriptor table. -/
structure FdTable where
  slots : Array Slot
  /-- The numbers of the free slots, in the order in which they are handed out. -/
  free : List Nat
  capacity : Nat
deriving DecidableEq, Repr

namespace FdTable

/-- A table of free slots, handed out in ascending order. -/
def ofCapacity (capacity : Nat) : FdTable :=
  { slots := Array.replicate capacity .free, free := List.range capacity, capacity := capacity }

/-- A new table; descriptor numbers have to fit a signed word of 32 bits. -/
def withCapacity (capacity : Nat) : Except Error FdTable :=
  if Limits.maxCapacity < capacity then .error .invalidArgument else .ok (ofCapacity capacity)

/-- The number of slots that are not free. -/
def used (t : FdTable) : Checked Nat :=
  if t.capacity < t.free.length then .error .usedUnderflow
  else .ok (t.capacity - t.free.length)

/-- The table with another slot at `fd`. -/
def setSlot (t : FdTable) (fd : Nat) (slot : Slot) : Checked FdTable :=
  if fd < t.slots.size then .ok { t with slots := t.slots.setIfInBounds fd slot }
  else .error (.slotOutOfRange fd)

/-- Put an entry into the free slot that is next in the queue. -/
def install (t : FdTable) (entry : FdEntry) : Checked (Except Error (Nat × FdTable)) :=
  match t.free with
  | [] => .ok (.error .tooManyOpenFiles)
  | fd :: free =>
    match t.slots[fd]? with
    | none => .error (.slotOutOfRange fd)
    | some .free =>
      .ok (.ok (fd, { t with slots := t.slots.setIfInBounds fd (.opened entry), free := free }))
    | some _ => .error (.queuedSlotTaken fd)

/-- The entry of an open slot. -/
def get (t : FdTable) (fd : Nat) : Except Error FdEntry :=
  match t.slots[fd]? with
  | none => .error .invalidArgument
  | some (.opened entry) => .ok entry
  | some _ => .error .badFileDescriptor

/-- Take the entry out of an open slot to close it. -/
def startClosing (t : FdTable) (fd : Nat) : Except Error (FdEntry × FdTable) :=
  (t.get fd).map fun entry => (entry, { t with slots := t.slots.setIfInBounds fd .closing })

/-- Make a slot free and queue its number. -/
def vacate (t : FdTable) (fd : Nat) : Checked FdTable := do
  let t ← t.setSlot fd .free
  return { t with free := t.free ++ [fd] }

/-- Make a slot free if it is open, and give its entry out. -/
def take (t : FdTable) (fd : Nat) : Checked (Option FdEntry × FdTable) :=
  match t.slots[fd]? with
  | none => .error (.slotOutOfRange fd)
  | some (.opened entry) => (t.vacate fd).map fun t => (some entry, t)
  | some _ => .ok (none, t)

end FdTable

end VirtualFs
