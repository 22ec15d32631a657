import VirtualFs.Kernel.Files
import VirtualFs.Kernel.Process
import VirtualFs.Kernel.Queries

/-!
# The kernel as a machine

The kernel runs in steps.  A step is caused by an event (`Event`): a call from outside, or the
answer of a driver or filesystem to the question asked last.  It ends with an outcome (`Outcome`):
the call returned, or a question is asked.  While a question is open, further calls may come in,
for instance from the driver that was asked; they are answered first, so the suspended calls form
a stack.

Events that make no sense where they come are refused and change nothing: a call that names
something that does not exist, an answer where nothing was asked or of the wrong kind, and letting
go of a table on which a suspended call still works.
-/

namespace VirtualFs

/-- Who gets the result of a call. -/
inductive Origin where
  /-- The caller, as it is. -/
  | direct
  /-- A process, as a number. -/
  | process (op : ProcessOp)
deriving DecidableEq, Repr

/-- A call that waits for the answer to its question. -/
structure Pending where
  frame : Frame
  origin : Origin
deriving DecidableEq, Repr

/-- The kernel with its suspended calls, the last one first. -/
structure Machine where
  kernel : Kernel
  stack : List Pending
deriving DecidableEq, Repr

/-- What makes the machine move. -/
inductive Event where
  | call (call : Call)
  /-- A process calls, and `current` is the table of the current process if there is one. -/
  | process (current : Option TableId) (call : ProcessCall)
  /-- The answer to the question that was asked last. -/
  | reply (reply : Reply)
deriving DecidableEq, Repr

/-- How a step of the machine ends. -/
inductive Outcome where
  | returned (result : Except Error Answer)
  | asked (question : HookCall)
  | refused

namespace Action

/-- Carry out a call as far as it goes. -/
def perform : Call → Action Progress
  | .query q => do return .finished (← query q)
  | .createVfs nodeLimit => unlocked do
      let s ← get
      let v := s.instances.size
      let directories : Record := ⟨s.nextRecord, .directory v, none⟩
      set { s with
        instances := s.instances.push ⟨.withLimit nodeLimit, [], directories⟩
        nextRecord := s.nextRecord + 1 }
      return .succeeded (.vfs v)
  | .register v path driver fs => do
      return .finished ((← register v path driver fs).map .registered)
  | .unregister v registration => do
      return .finished ((← unregister v registration).map fun _ => .done)
  | .registerFilesystem v fs => do
      return .finished ((← registerFilesystem v fs).map fun _ => .done)
  | .mount v path device fsType => mount v path device fsType
  | .unmount v path => unmount v path
  | .createTable capacity => do return .finished ((← createTable capacity).map .table)
  | .copyTable t budget => copyTable t budget
  | .destroyTable t => destroyTable t
  | .dropTable t => dropTable t
  | .open v t path flags mode => openFile v t path flags mode
  | .close t fd => closeFile t fd
  | .transfer t fd op => transfer t fd op

/-- Go on with a suspended call whose question is answered with a success. -/
def proceed : Frame → Reply → Action Progress
  | .opening t path record flags mode, _ => do
      openedFile t path record (← newHandle) flags mode
  | .abandoning _ path, _ => abandoned path none
  | .closing t fd entry, _ => closed t fd entry none
  | .sweeping t purpose entry remaining next, _ => sweepOn t purpose entry remaining next none
  | .unwinding t entry rest, _ => unwound t entry rest none
  | .transferring _ op, reply =>
      match op.answer? reply with
      | some answer => return .succeeded answer
      | none => throw .unknownObject
  | .probing v path device fs _, .mounted driver => mountMade v path device fs driver
  | .mounting v path device fs, .mounted driver => mountMade v path device fs driver
  | .undoing device error, _ => undone device error none
  | .unmounting v path record, _ => unmounted v path record none
  | _, _ => throw .unknownObject

/-- Go on with a suspended call whose question is answered with a failure. -/
def recover (failure : Error) : Frame → Action Progress
  | .opening _ _ _ _ _ => return .failed failure
  | .abandoning _ path => abandoned path (some failure)
  | .closing t fd entry => closed t fd entry (some failure)
  | .sweeping t purpose entry remaining next =>
      sweepOn t purpose entry remaining next (some failure)
  | .unwinding t entry rest => unwound t entry rest (some failure)
  | .transferring _ _ => return .failed failure
  | .probing v path device fs rest => do
      note (.rejected fs.fsType device failure)
      probe v path device rest
  | .mounting _ _ _ _ => return .failed failure
  | .undoing device error => undone device error (some failure)
  | .unmounting v path record => unmounted v path record (some failure)

/-- Go on with a suspended call. -/
def resume (frame : Frame) : Reply → Action Progress
  | .failed failure => recover failure frame
  | reply => proceed frame reply

end Action

namespace Machine

/-! ### What makes sense -/

/-- What a question about the state names exists. -/
def admitsQuery (s : Store) : Query → Bool
  | .entry t _ | .used t => s.isReachable t
  | .resolve v _ | .contains v _ | .isMounted v _ | .mounts v | .nodeCount v | .filesystems v
  | .hasFilesystem v _ => s.hasVfs v

/-- A suspended call works on the table. -/
def isUsed (m : Machine) (t : TableId) : Bool :=
  m.stack.any (·.frame.table? = some t)

/-- What a call names exists, and it does not take a table away from a suspended call. -/
def admits (m : Machine) : Call → Bool
  | .query q => admitsQuery m.kernel.store q
  | .createVfs _ | .createTable _ => true
  | .register v _ driver _ => m.kernel.store.hasVfs v && m.kernel.store.hasDriver driver
  | .unregister v _ | .registerFilesystem v _ | .mount v _ _ _ | .unmount v _ =>
      m.kernel.store.hasVfs v
  | .copyTable t _ | .destroyTable t | .close t _ | .transfer t _ _ =>
      m.kernel.store.isReachable t
  | .dropTable t =>
      m.kernel.store.isReachable t && t != Store.kernelTable && ! m.isUsed t
  | .open v t _ _ _ => m.kernel.store.hasVfs v && m.kernel.store.isReachable t

/-- The reply answers the question of a suspended call. -/
def accepts (s : Store) : Frame → Reply → Bool
  | _, .failed _ => true
  | .opening _ _ _ _ _, .opened => true
  | .transferring _ op, reply => (op.answer? reply).isSome
  | .probing _ _ _ _ _, .mounted driver | .mounting _ _ _ _, .mounted driver => s.hasDriver driver
  | .abandoning _ _, .done | .closing _ _ _, .done | .sweeping _ _ _ _ _, .done
  | .unwinding _ _ _, .done | .undoing _ _, .done | .unmounting _ _ _, .done => true
  | _, _ => false

/-! ### Steps -/

/-- Run an action on the kernel, with other calls suspended, and return its result or suspend the
call it belongs to.  While a question is open, the locks are held that were held when it was
put. -/
def run (kernel : Kernel) (stack : List Pending) (origin : Origin) (act : Action Progress) :
    Checked (Outcome × Machine) := do
  match ← act kernel with
  | (.waiting question frame cpu, kernel) =>
    return (.asked question, ⟨{ kernel with cpu := cpu }, ⟨frame, origin⟩ :: stack⟩)
  | (.finished result, kernel) =>
    match origin with
    | .direct => return (.returned result, ⟨kernel, stack⟩)
    | .process op =>
      let (answer, kernel) ← Process.deliver op result kernel
      return (.returned (.ok answer), ⟨kernel, stack⟩)

/-- One step of the machine. -/
def step (m : Machine) : Event → Checked (Outcome × Machine)
  | .call call =>
    if m.admits call then run m.kernel m.stack .direct (Action.perform call)
    else return (.refused, m)
  | .process current call =>
    let t := Process.currentTable current
    if m.kernel.store.hasVfs Process.globalVfs && m.kernel.store.isReachable t then
      run m.kernel m.stack (.process call.op)
        (match Process.call t call with
        | .ok call => Action.perform call
        | .error e => return .failed e)
    else return (.refused, m)
  | .reply reply =>
    match m.stack with
    | [] => return (.refused, m)
    | pending :: stack =>
      if accepts m.kernel.store pending.frame reply then
        run m.kernel stack pending.origin (Action.resume pending.frame reply)
      else return (.refused, m)

/-- The machine before the first event. -/
def initial (word enableMask : Sync.Word) : Machine :=
  { kernel := { store := .initial, cpu := ⟨word, enableMask, []⟩, journal := [] }, stack := [] }

end Machine

end VirtualFs
