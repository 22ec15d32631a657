import VirtualFs.Kernel.Call
import VirtualFs.Kernel.Locked

/-!
# Calls of processes

A process works on the one global file system and on its own descriptor table, or on the kernel's
where there is no process.  Numbers come and go as signed words: a negative descriptor number is no
descriptor at all, flags without a meaning are cleared, and every failure is `-1`, whatever its
cause; the cause goes to the journal.
-/

namespace VirtualFs

/-- What a process asks for. -/
inductive ProcessCall where
  | open (path : Path) (flags mode : UInt32)
  | close (fd : Int32)
  | read (fd : Int32) (length : Nat)
  | write (fd : Int32) (data : List UInt8)
  | readdir (fd : Int32)
  | control (fd : Int32) (op : UInt32) (argument : UInt64)
deriving DecidableEq, Repr

/-- The operation that a process asks for. -/
def ProcessCall.op : ProcessCall → ProcessOp
  | .open _ _ _ => .open
  | .close _ => .close
  | .read _ _ => .read
  | .write _ _ => .write
  | .readdir _ => .readdir
  | .control _ _ _ => .control

namespace Process

/-- The file system of processes. -/
def globalVfs : VfsId := 0

/-- The table that a call works on, given the table of the current process if there is one. -/
def currentTable (current : Option TableId) : TableId :=
  current.getD Store.kernelTable

/-- A descriptor number, unless it is negative. -/
def descriptor (fd : Int32) : Except Error Nat :=
  if fd < 0 then .error .invalidArgument else .ok fd.toInt.toNat

/-- The call that a process makes on a table. -/
def call (t : TableId) : ProcessCall → Except Error Call
  | .open path flags mode => .ok (.open globalVfs t path (OpenFlags.truncated ⟨flags⟩) mode)
  | .close fd => (descriptor fd).map fun fd => .close t fd
  | .read fd length => (descriptor fd).map fun fd => .transfer t fd (.read length)
  | .write fd data => (descriptor fd).map fun fd => .transfer t fd (.write data)
  | .readdir fd => (descriptor fd).map fun fd => .transfer t fd .readdir
  | .control fd op argument => (descriptor fd).map fun fd => .transfer t fd (.control op argument)

/-- What a process gets for an answer, if a signed word can say it. -/
def returned : Answer → Except Error Answer
  | .fd fd =>
    if fd ≤ Limits.maxCapacity then .ok (.returned fd [] none) else .error .tooManyOpenFiles
  | .moved count data => .ok (.returned count.toInt64.toInt data none)
  | .listed (.entry entry) => .ok (.returned 1 [] (some entry))
  | .listed .finished => .ok (.returned 0 [] none)
  | .controlled value => .ok (.returned value.toInt [] none)
  | _ => .ok (.returned 0 [] none)

/-- What a process gets for a result: failures go to the journal and become `-1`. -/
def deliver (op : ProcessOp) (result : Except Error Answer) : Action Answer := do
  match result.bind returned with
  | .ok answer => return answer
  | .error e =>
    Action.note (.processFailed op e)
    return .returned (-1) [] none

end Process

end VirtualFs
