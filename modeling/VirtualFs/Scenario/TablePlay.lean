import VirtualFs.Descriptor.Description
import VirtualFs.Kernel.Boot
import VirtualFs.Kernel.Machine
import VirtualFs.Names
import VirtualFs.Scenario.Log

/-!
# Scenarios on descriptor tables

Descriptor tables worked on below the level of files: descriptors are put into tables directly,
also where no reference is counted for it, which is how the faults of a table can be reached.
Drivers are names that count the files they close, and refuse to close while they are told to fail.
-/

namespace VirtualFs.Scenario

/-- One step on descriptor tables. -/
inductive TableStep where
  /-- Make a table under a name, with the default capacity if none is given. -/
  | make (table : String) (capacity : Option Nat)
  /-- Have a driver refuse to close, or not any more. -/
  | setFailing (driver : String) (failing : Bool)
  | drop (table : String)
  /-- Put a new descriptor into a table. -/
  | openOn (table driver : String) (path : Path) (flags : OpenFlags) (mode : UInt32)
  /-- Put a descriptor of one table into another without counting a reference. -/
  | duplicate (source : String) (fd : Nat) (table : String) (flags : OpenFlags) (mode : UInt32)
  | get (table : String) (fd : Nat)
  | close (table : String) (fd : Nat)
  | closeAll (table : String)
  | used (table : String)
  | capacity (table : String)
  /-- Copy a table, with at most `budget` slots if there is a budget. -/
  | clone (table target : String) (budget : Option Nat)
  | describe (table : String)
  /-- Ask whether the process layer is registered. -/
  | hasProcessOps
  /-- Use the process layer, which has to be registered. -/
  | processOps
deriving DecidableEq, Repr

/-- What a step answers. -/
inductive TableAnswer where
  | failed (error : Error)
  /-- No table has the name. -/
  | noTable
  | done
  | flag (value : Bool)
  | number (n : Nat)
  | text (text : String)
  | entry (entry : FdEntry) (references : Nat)
deriving DecidableEq, Repr

/-- A driver that only closes. -/
structure Closer where
  closes : Nat
  failing : Bool
deriving DecidableEq, Repr

/-- Named tables and drivers, on a machine for which no process layer is registered. -/
structure TablePlay where
  machine : Machine
  boot : Boot
  tables : Names TableId
  drivers : Names Closer
deriving DecidableEq, Repr

namespace TablePlay

/-- No tables and no drivers. -/
def start : TablePlay :=
  { machine := .initial 1 1, boot := .registerProcessor .initial 1 1, tables := [], drivers := [] }

/-- A computation on the play. -/
abbrev Playing := StateT TablePlay Checked

/-- The driver of a name, made when it is mentioned for the first time. -/
def mention (name : String) : Playing Closer := do
  match (← get).drivers.find? name with
  | some closer => return closer
  | none =>
    let closer : Closer := ⟨0, false⟩
    modify fun p => { p with drivers := p.drivers.put name closer }
    return closer

/-- How a driver answers a question: it closes and counts, or refuses. -/
def answer : HookCall → Playing Reply
  | .close driver _ => do
    let closer ← mention driver.name
    if closer.failing then
      return .failed .ioError
    modify fun p =>
      { p with drivers := p.drivers.put driver.name { closer with closes := closer.closes + 1 } }
    return .done
  | _ => return .failed .notSupported

/-- Let the machine make a step. -/
def stepMachine (event : Event) : Playing Outcome := do
  let p ← get
  let (outcome, machine) ← p.machine.step event
  set { p with machine := machine }
  return outcome

/-- Answer the questions of the machine until the call returns; there are at most as many as the
first argument says. -/
def settle : Nat → Outcome → Playing (Except Error Answer)
  | _, .returned result => return result
  | _, .refused => throw .unknownObject
  | 0, .asked _ => throw .boundExceeded
  | fuel + 1, .asked question => do
    let reply ← answer question
    settle fuel (← stepMachine (.reply reply))

/-- A call, with all questions answered; every question closes the file of another slot. -/
def call (c : Call) : Playing (Except Error Answer) := do
  let outcome ← stepMachine (.call c)
  let slots := (← get).machine.kernel.store.tables.foldl (fun slots state =>
    match state with
    | some state => slots + state.table.slots.size
    | none => slots) 0
  settle (slots + 1) outcome

/-- Run an action of the kernel directly. -/
def direct {α : Type} (act : Action α) : Playing α := do
  let p ← get
  let (a, kernel) ← act p.machine.kernel
  set { p with machine := { p.machine with kernel := kernel } }
  return a

/-- A step on a named table. -/
def onTable (name : String) (act : TableId → Playing TableAnswer) : Playing TableAnswer := do
  match (← get).tables.find? name with
  | none => return .noTable
  | some t => act t

/-- Give a table a name; the table that had it is dropped. -/
def nameTable (name : String) (t : TableId) : Playing Unit := do
  let older := (← get).tables.find? name
  modify fun p => { p with tables := p.tables.put name t }
  match older with
  | some older => let _ ← call (.dropTable older)
  | none => pure ()

/-- Put a descriptor into a table. -/
def install (t : TableId) (d : Descriptor) (flags : OpenFlags) (mode : UInt32) :
    Action TableAnswer := do
  match ← Action.tryEditTable t fun table => table.install ⟨d, flags, mode⟩ with
  | .error e => return .failed e
  | .ok fd => return .number fd

/-- The answer of a step for a result that is a number or nothing. -/
def ofResult : Except Error Answer → TableAnswer
  | .error e => .failed e
  | .ok (.number n) => .number n
  | .ok (.entry entry references) => .entry entry references
  | .ok _ => .done

/-- The capacity of a table. -/
def capacityOf (t : TableId) : Playing Nat := do
  return (((← get).machine.kernel.store.table? t).map (·.capacity)).getD 0

/-- One step. -/
def step : TableStep → Playing TableAnswer
  | .make name capacity => do
    let capacity := capacity.getD (← get).boot.capacity
    match ← call (.createTable capacity) with
    | .ok (.table t) =>
      nameTable name t
      return .number capacity
    | result => return ofResult result
  | .setFailing driver failing => do
    let closer ← mention driver
    modify fun p => { p with drivers := p.drivers.put driver { closer with failing := failing } }
    return .done
  | .drop name => do
    match (← get).tables.find? name with
    | none => return .flag false
    | some t =>
      modify fun p => { p with tables := p.tables.remove name }
      let _ ← call (.dropTable t)
      return .flag true
  | .openOn name driver path flags mode => do
    let _ ← mention driver
    onTable name fun t => direct do
      let handle ← Action.newHandle
      let record : Record := ⟨0, .external ⟨0, driver⟩, none⟩
      install t (← Action.newDescriptor path handle record) flags mode
  | .duplicate source fd name flags mode =>
    onTable name fun t => onTable source fun s => do
      match ← direct (Action.onTable s fun table => pure (table.get fd)) with
      | .error e => return .failed e
      | .ok entry => direct (install t entry.descriptor flags mode)
  | .get name fd => onTable name fun t => return ofResult (← call (.query (.entry t fd)))
  | .close name fd => onTable name fun t => return ofResult (← call (.close t fd))
  | .closeAll name => onTable name fun t => return ofResult (← call (.destroyTable t))
  | .used name => onTable name fun t => return ofResult (← call (.query (.used t)))
  | .capacity name => onTable name fun t => return .number (← capacityOf t)
  | .clone name target budget => onTable name fun t => do
    match ← call (.copyTable t budget) with
    | .ok (.table copy) =>
      let used ← call (.query (.used copy))
      nameTable target copy
      return ofResult used
    | result => return ofResult result
  | .describe name => onTable name fun t => do
    let capacity ← capacityOf t
    match ← call (.query (.used t)) with
    | .ok (.number used) => return .text (Description.ofTable capacity used)
    | result => return ofResult result
  | .hasProcessOps => return .flag (← get).boot.ops.isSome
  | .processOps => do
    let _ ← (← get).boot.processOps
    return .done

/-- What is shown of a step: its answer, how often each driver has closed, and the notices. -/
structure Shown where
  answer : TableAnswer
  closes : Names Nat
  notices : List Notice
deriving DecidableEq, Repr

/-- Take the notices out of the journal. -/
def takeNotices (p : TablePlay) : List Notice × TablePlay :=
  let kernel := p.machine.kernel
  (kernel.journal, { p with machine := { p.machine with kernel := { kernel with journal := [] } } })

/-- Steps one after the other: what is shown of each, and the fault that stopped them if one did. -/
def run (p : TablePlay) : List TableStep → List Shown × Option Fault
  | [] => ([], none)
  | s :: rest =>
    match step s p with
    | .error fault => ([], some fault)
    | .ok (answer, p) =>
      let (notices, p) := p.takeNotices
      let closes := p.drivers.map fun driver => (driver.1, driver.2.closes)
      let (shown, fault) := run p rest
      (⟨answer, closes, notices⟩ :: shown, fault)

end TablePlay

end VirtualFs.Scenario
