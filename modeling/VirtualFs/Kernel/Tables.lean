import VirtualFs.Kernel.Call
import VirtualFs.Kernel.Locked

/-!
# Tables as a whole

Making, copying and emptying descriptor tables.  A copy holds the same descriptors in the same slots
and takes one more reference to each; where it fails half-way, what it took is released again.
Emptying a table releases one slot after the other, in ascending order; a slot is free before its
driver is asked to close, and a driver that refuses is only reported.
-/

namespace VirtualFs.Action

/-- Make a table. -/
def createTable (capacity : Nat) : Action (Except Error TableId) :=
  unlocked do
    match FdTable.withCapacity capacity with
    | .error e => return .error e
    | .ok table =>
      let s ← get
      set { s with tables := s.tables.push (some ⟨table, true⟩) }
      return .ok s.tables.size

/-- Release one reference.  When it was the last, a driver from outside is to be asked to close; the
built-in driver has nothing to close. -/
def releaseReference (entry : FdEntry) : Action (Option HookCall) := do
  let d := entry.descriptor
  match ← editReferences d fun r => r.release d with
  | .shared => return none
  | .last =>
    match d.record.driver with
    | .external driver => return some (.close driver d.handle)
    | .directory _ => return none

/-! ### Copying -/

/-- The slots copied so far: the slots themselves, the numbers of the free ones, and whether the
budget reached to the end. -/
structure Copied where
  slots : List Slot
  free : List Nat
  complete : Bool

/-- Copy slots, the first of them number `fd`, while the budget lasts.  An open slot is copied
with a reference to its descriptor; any other is free in the copy. -/
def shareSlots (budget : Option Nat) : Nat → List Slot → Action Copied
  | _, [] => return ⟨[], [], true⟩
  | fd, slot :: rest => do
    if budget.any (· ≤ fd) then
      return ⟨[], [], false⟩
    match slot with
    | .opened entry =>
      editReferences entry.descriptor fun r => do
        return ((), ← r.acquire entry.descriptor)
      let more ← shareSlots budget (fd + 1) rest
      return { more with slots := .opened entry :: more.slots }
    | .free | .closing =>
      let more ← shareSlots budget (fd + 1) rest
      return { more with slots := .free :: more.slots, free := fd :: more.free }

/-- Release what a failed copy holds. -/
def unwind (t : TableId) : List Slot → Action Progress
  | [] => return .failed .noMemory
  | .opened entry :: rest => do
    match ← releaseReference entry with
    | some question => ask question (.unwinding t entry rest)
    | none => unwind t rest
  | _ :: rest => unwind t rest

/-- Copy a table. -/
def copyTable (t : TableId) (budget : Option Nat) : Action Progress := do
  let (capacity, copied) ← holding (.table t) do
    let table ← unlocked (Section.getTable t)
    return (table.capacity, ← shareSlots budget 0 table.slots.toList)
  if copied.complete then
    let copy : FdTable := ⟨copied.slots.toArray, copied.free, capacity⟩
    unlocked do
      let s ← get
      set { s with tables := s.tables.push (some ⟨copy, true⟩) }
      return .succeeded (.table s.tables.size)
  else
    unwind t copied.slots

/-- The driver has been asked to close a file of a failed copy. -/
def unwound (t : TableId) (entry : FdEntry) (rest : List Slot) (failure : Option Error) :
    Action Progress := do
  match failure with
  | some e => note (.closeFailed entry.descriptor.path e)
  | none => pure ()
  unwind t rest

/-! ### Emptying -/

/-- All slots have been released. -/
def swept (t : TableId) : SweepPurpose → Action Progress
  | .destroy => return .succeeded .done
  | .drop => unlocked do
      Section.setTableState t none
      return .succeeded .done

/-- Release the open slots of a table from number `next` on, `remaining` slots in all. -/
def sweep (t : TableId) (purpose : SweepPurpose) : Nat → Nat → Action Progress
  | 0, _ => swept t purpose
  | remaining + 1, next => do
    match ← editTable t fun table => table.take next with
    | none => sweep t purpose remaining (next + 1)
    | some entry =>
      match ← releaseReference entry with
      | some question =>
        ask question (.sweeping t purpose entry remaining (next + 1))
      | none => sweep t purpose remaining (next + 1)

/-- The driver has been asked to close a file of a table that is being emptied. -/
def sweepOn (t : TableId) (purpose : SweepPurpose) (entry : FdEntry) (remaining next : Nat)
    (failure : Option Error) : Action Progress := do
  match failure with
  | some e => note (.closeFailed entry.descriptor.path e)
  | none => pure ()
  sweep t purpose remaining next

/-- Close every file of a table. -/
def destroyTable (t : TableId) : Action Progress := do
  let table ← unlocked (Section.getTable t)
  sweep t .destroy table.capacity 0

/-- Close every file of a table that nothing names any more, and forget the table. -/
def dropTable (t : TableId) : Action Progress := do
  let capacity ← unlocked do
    let table ← Section.getTable t
    Section.setTableState t (some ⟨table, false⟩)
    return table.capacity
  sweep t .drop capacity 0

end VirtualFs.Action
