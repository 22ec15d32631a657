import VirtualFs.Descriptor.Description
import VirtualFs.Kernel.Boot
import VirtualFs.Scenario.Mock

/-!
# The state of a scenario, and what a step means

A session holds the machine, the stand-ins, the queued scripts, and what the names of the scenario
stand for.  A step means either an answer at once, or an event for the machine, or a question to a
driver, and then what to make of the result (`Plan`).

A table lives for as long as a name, a running step or the current process holds it.  A plan says
which tables its step holds while it runs, and which ones have lost a holder when it is done.

The kernel's table may have a name, and then that name always means it.  A table put under the name
all the same lives on, and nothing reaches it.
-/

namespace VirtualFs.Scenario

/-- A script that waits for calls of a hook. -/
structure Queued where
  on : String
  hook : Hook
  steps : List Step
  result : Option Scripted
  /-- How many more calls it serves. -/
  times : Nat

/-- The state of a scenario. -/
structure Session where
  machine : Machine
  mocks : Mocks
  drivers : Names Driver
  filesystems : Array MockFilesystem
  filesystemNames : Names Nat
  scripts : List Queued
  registrations : Names Registration
  /-- The name of the kernel's table, if it has one. -/
  kernelName : Option String
  /-- The tables under names, whatever the name of the kernel's is. -/
  tables : Names TableId
  ops : ProcessOps
  /-- The tables that running steps hold, once for each. -/
  held : List TableId
  /-- The hooks called in the running step. -/
  calls : List CallReport
  /-- Node numbers are part of answers and of the log. -/
  showsNodes : Bool

/-- A computation on a session. -/
abbrev Playing := StateT Session Checked

/-- The result of a step, and the tables that have lost a holder. -/
structure Finish where
  result : Except Failure Value
  released : List TableId

/-- What a step means. -/
inductive Plan where
  | answer (result : Except Failure Value)
  /-- Tables have lost a holder; the answer is found when they have been let go of. -/
  | release (released : List TableId) (next : Playing (Except Failure Value))
  /-- An event for the machine, while the step holds tables. -/
  | event (event : Event) (holds : List TableId) (next : Except Error Answer → Playing Finish)
  /-- A question to a driver, while the step holds tables. -/
  | question (question : HookCall) (holds : List TableId) (next : Reply → Playing Finish)

namespace Finish

/-- A result, and no table has lost a holder. -/
def of (result : Except Failure Value) : Finish := ⟨result, []⟩

/-- A success. -/
def value (v : Value) : Finish := of (.ok v)

/-- A failure. -/
def failure (f : Failure) : Finish := of (.error f)

/-- An error of the file system. -/
def error (e : Error) : Finish := failure (.error e)

end Finish

namespace Plan

/-- A success at once. -/
def value (v : Value) : Plan := answer (.ok v)

/-- A failure at once. -/
def failure (f : Failure) : Plan := answer (.error f)

end Plan

namespace Session

/-! ### The machine -/

/-- Let the machine make a step. -/
def stepMachine (event : Event) : Playing Outcome := do
  let s ← get
  let (outcome, machine) ← s.machine.step event
  set { s with machine := machine }
  return outcome

/-- Run an action of the kernel directly. -/
def direct {α : Type} (act : Action α) : Playing α := do
  let s ← get
  let (a, kernel) ← act s.machine.kernel
  set { s with machine := { s.machine with kernel := kernel } }
  return a

/-- The answer to a question about the state. -/
def query (q : Query) : Playing (Except Error Answer) := do
  match ← stepMachine (.call (.query q)) with
  | .returned result => return result
  | _ => throw .unknownObject

/-- The number that answers a question about the state. -/
def queryNumber (q : Query) : Playing Nat := do
  match ← query q with
  | .ok (.number n) => return n
  | _ => return 0

/-- The capacity of a table. -/
def capacityOf (t : TableId) : Playing Nat := do
  return (((← get).machine.kernel.store.table? t).map (·.capacity)).getD 0

/-! ### Results -/

/-- What an answer of the machine is shown as. -/
def valueOf : Answer → Value
  | .fd fd => .number fd
  | .number n => .number n
  | .flag value => .flag value
  | .paths paths => .paths paths
  | .names names => .names names
  | .moved count _ => .number count.toNat
  | .listed next => .listed next
  | .controlled value => .number value.toInt
  | .entry entry references => .entry ⟨entry, references⟩
  | _ => .done

/-- The result of a step that is a result of the machine. -/
def resultOf (result : Except Error Answer) : Except Failure Value :=
  match result with
  | .error e => .error (.error e)
  | .ok answer => .ok (valueOf answer)

/-- What a result of the machine is shown as. -/
def shown (result : Except Error Answer) : Finish := .of (resultOf result)

/-- A call, and its result as it is. -/
def calling (call : Call) (holds : List TableId) : Plan :=
  .event (.call call) holds fun result => return shown result

/-- The first `count` bytes of a buffer of `length` zeros, after `data` was put at its front. -/
def bufferFront (length count : Nat) (data : List UInt8) : List UInt8 :=
  let front := data.take (min length count)
  front ++ List.replicate (min length count - front.length) 0

/-- The table that a name means. -/
def table? (s : Session) (name : String) : Option TableId :=
  if s.kernelName = some name then some Store.kernelTable else s.tables.find? name

/-- A plan for a named table. -/
def onTable (name : String) (act : TableId → Playing Plan) : Playing Plan := do
  match (← get).table? name with
  | none => return .failure .noTable
  | some t => act t

/-- Give a table a name; the one that had it loses a holder. -/
def nameTable (name : String) (t : TableId) : Playing (List TableId) := do
  let older := (← get).tables.find? name
  modify fun s => { s with tables := s.tables.put name t }
  return older.toList

/-! ### Definitions -/

/-- A driver that lists the nodes of a mount graph of its own, with drivers that do nothing
mounted at some paths. -/
def makeDirectory (mounts : List Path) : Playing Driver := do
  let v ← match ← stepMachine (.call (.createVfs Limits.unboundedNodes)) with
    | .returned (.ok (.vfs v)) => pure v
    | _ => throw .unknownObject
  for path in mounts do
    let (bare, mocks) := (← get).mocks.newDriver ⟨"", .bare, 0, []⟩
    modify fun s => { s with mocks := mocks }
    let _ ← stepMachine (.call (.register v path (.external bare) none))
  return .directory v

/-- A driver of a kind. -/
def makeDriver (name : String) : DriverKind → Playing Driver
  | .directory mounts => makeDirectory mounts
  | .memory files => add ⟨name, .memory, 0, files⟩
  | .openOnly => add ⟨name, .openOnly, 0, []⟩
  | .bare => add ⟨name, .bare, 0, []⟩
where
  add (d : MockDriver) : Playing Driver := do
    let (made, mocks) := (← get).mocks.newDriver d
    modify fun s => { s with mocks := mocks }
    return .external made

/-- Define a filesystem. -/
def defineFilesystem (fs : MockFilesystem) : Playing Unit :=
  modify fun s =>
    { s with
      filesystems := s.filesystems.push fs
      filesystemNames := s.filesystemNames.put fs.name s.filesystems.size }

/-! ### Hooks -/

/-- The next script for a hook, taken out of the queue. -/
def takeScript (on : String) (hook : Hook) : List Queued → Option (Queued × List Queued)
  | [] => none
  | q :: rest =>
    if q.on = on ∧ q.hook = hook ∧ 0 < q.times then
      some (q, if q.times = 1 then rest else { q with times := q.times - 1 } :: rest)
    else (takeScript on hook rest).map fun (found, rest) => (found, q :: rest)

/-- The name of the driver or filesystem that a question goes to, if its call is shown. -/
def shownAs (s : Session) (question : HookCall) : Option String :=
  match question with
  | .open d _ _ _ | .close d _ | .read d _ _ | .write d _ _ | .readdir d _ | .control d _ _ _ =>
    match s.mocks.drivers[d.id]? with
    | some mock => if mock.shows (.of question) then some mock.name else none
    | none => none
  | .mount fs _ _ => (s.filesystems[fs.id]?).map (·.name)
  | .unmount fs _ =>
    match s.filesystems[fs.id]? with
    | some mock => if mock.plain then none else some mock.name
    | none => none

/-- What the driver or filesystem does that a question goes to. -/
def perform (question : HookCall) : Playing Reply := do
  let s ← get
  match question with
  | .open d _ _ _ | .close d _ | .read d _ _ | .write d _ _ | .readdir d _ | .control d _ _ _ =>
    let (reply, mocks) := s.mocks.ofDriver d.id question
    set { s with mocks := mocks }
    return reply
  | .mount fs _ _ | .unmount fs _ =>
    match s.filesystems[fs.id]? with
    | none => return .failed .notSupported
    | some mock =>
      let (reply, mocks, mock) := s.mocks.ofFilesystem mock question
      set { s with mocks := mocks, filesystems := s.filesystems.setIfInBounds fs.id mock }
      return reply

/-! ### Steps -/

/-- The entries behind two descriptor numbers, of which both have to be open. -/
def bothOpen (a b : TableId × Nat) : Playing (Option (FdEntry × FdEntry)) := do
  match ← query (.entry a.1 a.2), ← query (.entry b.1 b.2) with
  | .ok (.entry first _), .ok (.entry second _) => return some (first, second)
  | _, _ => return none

/-- Ask a driver to list with the handle of another. -/
def listForeign (t : TableId) (fd handleFd : Nat) : Playing Plan := do
  match ← bothOpen (t, fd) (t, handleFd) with
  | none => return .failure (.error .badFileDescriptor)
  | some (first, second) =>
    match first.descriptor.record.driver with
    | .external driver =>
      return .question (.readdir driver second.descriptor.handle) [t] fun reply =>
        match reply with
        | .listed next => return .value (.listed next)
        | .failed e => return .error e
        | _ => return .error .notSupported
    | .directory v =>
      match ← direct (Action.readDirectory v second.descriptor.handle) with
      | .ok next => return .value (.listed next)
      | .error e => return .failure (.error e)

/-- Describe a table, or a descriptor of it and its record. -/
def describe (t : TableId) : Option Nat → Playing Plan
  | none => do
    return .value (.text (Description.ofTable (← capacityOf t) (← queryNumber (.used t))))
  | some fd => do
    match ← query (.entry t fd) with
    | .ok (.entry entry references) =>
      let d := entry.descriptor
      return .value (.texts (Description.ofDescriptor d references) (Description.ofRecord d.record))
    | result => return .answer (resultOf result)

/-- What a process gets for a call. -/
def processFinish (call : ProcessCall) : Except Error Answer → Finish
  | .ok (.returned value data entry) =>
    match call with
    | .read _ length => .value (.returned value (some (bufferFront length value.toNat data)))
    | .readdir _ => .value (.returnedEntry value entry)
    | _ => .value (.returned value none)
  | result => shown result

/-- What a step means. -/
def plan : Step → Playing Plan
  | .driver name kind => do
    let driver ← makeDriver name kind
    modify fun s => { s with drivers := s.drivers.put name driver }
    return .value .done
  | .filesystem name fsType accept files plain => do
    defineFilesystem ⟨name, fsType, accept, files, plain, 0⟩
    return .value .done
  | .script on hook steps result times => do
    modify fun s => { s with scripts := s.scripts ++ [⟨on, hook, steps, result, times⟩] }
    return .value .done
  | .register v path driver name => do
    match (← get).drivers.find? driver with
    | none => return .failure .noDriver
    | some driver =>
      return .event (.call (.register v path driver none)) [] fun result => do
        match result with
        | .ok (.registered registration) =>
          modify fun s => { s with registrations := s.registrations.put name registration }
          return .value (if (← get).showsNodes then .number registration.node else .done)
        | result => return shown result
  | .unregister v name => do
    match (← get).registrations.find? name with
    | none => return .failure .noRegistration
    | some registration =>
      modify fun s => { s with registrations := s.registrations.remove name }
      return calling (.unregister v registration) []
  | .resolve v path against =>
    return .event (.call (.query (.resolve v path))) [] fun result => do
      match result with
      | .ok (.resolved resolution) =>
        let relative := resolution.relative against
        match resolution with
        | .driver record offset =>
          return .value (.resolved (some (record.driver.name, offset)) relative)
        | .node => return .value (.resolved none relative)
      | result => return shown result
  | .contains v path => return calling (.query (.contains v path)) []
  | .isMounted v path => return calling (.query (.isMounted v path)) []
  | .list v => return calling (.query (.mounts v)) []
  | .count v => return calling (.query (.nodeCount v)) []
  | .registerFilesystem v name => do
    let s ← get
    match s.filesystemNames.find? name with
    | none => return .failure .noFilesystem
    | some id =>
      let fsType := ((s.filesystems[id]?).map (·.fsType)).getD ""
      return calling (.registerFilesystem v ⟨id, fsType⟩) []
  | .filesystems v => return calling (.query (.filesystems v)) []
  | .hasFilesystem v fsType => return calling (.query (.hasFilesystem v fsType)) []
  | .mount v path device fsType => return calling (.mount v path device fsType) []
  | .unmount v path => return calling (.unmount v path) []
  | .makeTable name capacity => do
    let capacity := capacity.getD (← get).ops.maxFds
    return .event (.call (.createTable capacity)) [] fun result => do
      match result with
      | .ok (.table t) =>
        let released ← nameTable name t
        return ⟨.ok (.number capacity), released⟩
      | result => return shown result
  | .setMaxFds n => do
    modify fun s => { s with ops := { s.ops with maxFds := n } }
    return .value (.number n)
  | .copyTable name target => onTable name fun t =>
    return .event (.call (.copyTable t none)) [t] fun result => do
      match result with
      | .ok (.table copy) =>
        let used ← queryNumber (.used copy)
        let released ← nameTable target copy
        return ⟨.ok (.number used), released⟩
      | result => return shown result
  | .destroyTable name => onTable name fun t =>
    return .event (.call (.destroyTable t)) [t] fun result => do
      match result with
      | .ok _ => return .value (.number (← queryNumber (.used t)))
      | result => return shown result
  | .dropTable name => onTable name fun t => do
    if t = Store.kernelTable then
      return .value (.flag false)
    modify fun s => { s with tables := s.tables.remove name }
    return .release [t] (return .ok (.flag true))
  | .open v name path flags mode => onTable name fun t =>
    return calling (.open v t path flags mode) [t]
  | .close name fd => onTable name fun t => return calling (.close t fd) [t]
  | .transfer name fd op => onTable name fun t =>
    return .event (.call (.transfer t fd op)) [t] fun result => do
      match op, result with
      | .read length, .ok (.moved count data) =>
        return .value (.contents count.toNat (bufferFront length count.toNat data))
      | _, result => return shown result
  | .get name fd => onTable name fun t => return calling (.query (.entry t fd)) [t]
  | .used name => onTable name fun t => return calling (.query (.used t)) [t]
  | .capacity name => onTable name fun t => return .value (.number (← capacityOf t))
  | .same name fd other otherFd => onTable name fun t => onTable other fun u => do
    match ← bothOpen (t, fd) (u, otherFd) with
    | none => return .failure (.error .badFileDescriptor)
    | some (first, second) =>
      return .value (.flag (first.descriptor.id = second.descriptor.id))
  | .listForeign name fd handleFd => onTable name fun t => listForeign t fd handleFd
  | .describe name fd => onTable name fun t => describe t fd
  | .setCurrent none => setCurrent none
  | .setCurrent (some name) => onTable name fun t => setCurrent (some t)
  | .process call => do
    let current := (← get).ops.current
    let t := Process.currentTable current
    return .event (.process current call) [t] fun result => return processFinish call result
where
  setCurrent (current : Option TableId) : Playing Plan := do
    let older := (← get).ops.current
    modify fun s => { s with ops := { s.ops with current := current } }
    return .release older.toList do
      let t := Process.currentTable (← get).ops.current
      return .ok (.current (t = Store.kernelTable) (← capacityOf t))

end Session

end VirtualFs.Scenario
