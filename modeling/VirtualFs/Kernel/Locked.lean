import VirtualFs.Journal
import VirtualFs.Kernel.Call
import VirtualFs.Kernel.Store
import VirtualFs.Sync.Cpu

/-!
# The kernel and its locks

The kernel is its store, the processor it runs on with the locks it holds, and the journal.  Every
access to shared state is a `Section` run under the lock that protects it (`locked`); a section
cannot touch the locks, so what it does and what is held stay apart.  Only where one lock is taken
under another does the outer one enclose a whole action (`holding`).

Taking a lock that is held already would wait for ever, and is a fault.

A call makes progress (`Progress`) until it is finished or has to ask a driver or a filesystem
(`Action.ask`).  With the question goes the processor as it is where the question is put: a lock
held there is held for as long as the question is open.
-/

namespace VirtualFs

/-- What a lock protects. -/
inductive LockId where
  /-- The mount graph of a file system. -/
  | mounts (v : VfsId)
  /-- The filesystem types of a file system. -/
  | filesystems (v : VfsId)
  /-- The slots and the queue of a descriptor table. -/
  | table (t : TableId)
  /-- The reference count of a descriptor. -/
  | references (descriptor : Nat)
  /-- The cursor of an open directory. -/
  | cursor (directory : Nat)
deriving DecidableEq, Repr

/-- The kernel. -/
structure Kernel where
  store : Store
  cpu : Sync.Cpu LockId
  /-- What has been reported, the oldest notice first. -/
  journal : List Notice
deriving DecidableEq, Repr

/-- A computation of the kernel. -/
abbrev Action := StateT Kernel Checked

/-- How far a call has come. -/
inductive Progress where
  | finished (result : Except Error Answer)
  /-- The call waits for the answer to a question, which was put with this processor. -/
  | waiting (question : HookCall) (frame : Frame) (cpu : Sync.Cpu LockId)

namespace Progress

/-- The call succeeded. -/
def succeeded (answer : Answer) : Progress := .finished (.ok answer)

/-- The call failed. -/
def failed (error : Error) : Progress := .finished (.error error)

/-- The processor after a step that has come so far and leaves it as `left`: while a question is
open, it is as it was when the question was put. -/
def cpu (left : Sync.Cpu LockId) : Progress → Sync.Cpu LockId
  | .finished _ => left
  | .waiting _ _ cpu => cpu

end Progress

namespace Action

variable {α : Type}

/-- Put a question, and leave the rest of the call to a frame. -/
def ask (question : HookCall) (frame : Frame) : Action Progress := do
  return .waiting question frame (← get).cpu

/-- Report something. -/
def note (n : Notice) : Action Unit :=
  modify fun k => { k with journal := k.journal ++ [n] }

/-- Report changes of a mount graph. -/
def noteChanges (changes : List Mount.Change) : Action Unit :=
  modify fun k => { k with journal := k.journal ++ changes.map .changed }

/-- Run a section on state that no one else can reach. -/
def unlocked (s : Section α) : Action α := fun k => do
  let (a, store) ← s k.store
  return (a, { k with store := store })

/-- Run a section under a lock. -/
def locked (l : LockId) (s : Section α) : Action α := fun k =>
  match k.cpu.lock? l with
  | none => .error .deadlock
  | some cpu => do
    let (a, store) ← s k.store
    return (a, { k with store := store, cpu := cpu.release l })

/-- Run an action under a lock. -/
def holding (l : LockId) (act : Action α) : Action α := fun k =>
  match k.cpu.lock? l with
  | none => .error .deadlock
  | some cpu => do
    let (a, k) ← act { k with cpu := cpu }
    return (a, { k with cpu := k.cpu.release l })

/-- Run a section on a mount graph. -/
def onGraph (v : VfsId) (read : Mount.Graph Record → Checked α) : Action α :=
  locked (.mounts v) (Section.readGraph v read)

/-- Change a mount graph and report the changes. -/
def editGraph (v : VfsId) (edit : Mount.Graph Record → Checked (Mount.Edit Record α)) :
    Action α := do
  let (changes, a) ← locked (.mounts v) (Section.editGraph v edit)
  noteChanges changes
  return a

/-- Run a section on a table. -/
def onTable (t : TableId) (read : FdTable → Checked α) : Action α :=
  locked (.table t) do read (← Section.getTable t)

/-- Change a table. -/
def editTable (t : TableId) (edit : FdTable → Checked (α × FdTable)) : Action α :=
  locked (.table t) (Section.editTable t edit)

/-- Change a table, unless the change fails. -/
def tryEditTable (t : TableId) (edit : FdTable → Checked (Except Error (α × FdTable))) :
    Action (Except Error α) :=
  locked (.table t) (Section.tryEditTable t edit)

/-- Change the reference count of a descriptor. -/
def editReferences (d : Descriptor) (edit : References → Checked (α × References)) : Action α :=
  locked (.references d.id) (Section.editReferences edit)

end Action

end VirtualFs
