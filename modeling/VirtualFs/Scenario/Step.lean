import VirtualFs.Kernel.Machine
import VirtualFs.Names

/-!
# Steps of a scenario

A scenario works on file systems, tables, drivers and filesystems by name, step by step.  Its
drivers and filesystems are stand-ins whose hooks can be *scripted*: a script is a list of further
steps, run when the hook is called, and possibly a result that takes the place of what the hook
would do.

The answer of a step comes with the hooks that were called during it, each with the answers of the
steps of its script.
-/

namespace VirtualFs.Scenario

/-- A hook of a driver or filesystem. -/
inductive Hook where
  | open
  | close
  | read
  | write
  | readdir
  | control
  | mount
  | unmount
deriving DecidableEq, Repr

/-- The hook that a question is for. -/
def Hook.of : HookCall → Hook
  | .open _ _ _ _ => .open
  | .close _ _ => .close
  | .read _ _ _ => .read
  | .write _ _ _ => .write
  | .readdir _ _ => .readdir
  | .control _ _ _ _ => .control
  | .mount _ _ _ => .mount
  | .unmount _ _ => .unmount

/-- A result that takes the place of what a hook would do. -/
inductive Scripted where
  | failure (error : Error)
  /-- The count of a read or write, or the value of a control operation. -/
  | number (value : Int)
  /-- The next entry of a directory. -/
  | next (next : ReadDir)
deriving DecidableEq, Repr

/-- What a stand-in for a driver can do. -/
inductive DriverKind where
  /-- Files in memory. -/
  | memory (files : Names (List UInt8))
  /-- It opens whatever it is asked to, and that is all. -/
  | openOnly
  /-- Nothing. -/
  | bare
  /-- It lists the nodes of a mount graph of its own. -/
  | directory (mounts : List Path)

/-- One step of a scenario. -/
inductive Step where
  /-- Define a driver. -/
  | driver (name : String) (kind : DriverKind)
  /-- Define a filesystem, which takes the devices whose name begins with `accept`.  A plain one
  has no hook for unmounting. -/
  | filesystem (name fsType : String) (accept : Path) (files : Names (List UInt8)) (plain : Bool)
  /-- Script the next `times` calls of a hook. -/
  | script (on : String) (hook : Hook) (steps : List Step) (result : Option Scripted) (times : Nat)
  | register (v : VfsId) (path : Path) (driver name : String)
  | unregister (v : VfsId) (name : String)
  /-- Resolve a path as it is; the relative part is that of `against`. -/
  | resolve (v : VfsId) (path against : Path)
  | contains (v : VfsId) (path : Path)
  | isMounted (v : VfsId) (path : Path)
  | list (v : VfsId)
  | count (v : VfsId)
  | registerFilesystem (v : VfsId) (name : String)
  | filesystems (v : VfsId)
  | hasFilesystem (v : VfsId) (fsType : String)
  | mount (v : VfsId) (path device : Path) (fsType : Option String)
  | unmount (v : VfsId) (path : Path)
  /-- Make a table, with the capacity the process layer says if none is given. -/
  | makeTable (table : String) (capacity : Option Nat)
  /-- Have the process layer say another capacity. -/
  | setMaxFds (n : Nat)
  | copyTable (table target : String)
  | destroyTable (table : String)
  | dropTable (table : String)
  | open (v : VfsId) (table : String) (path : Path) (flags : OpenFlags) (mode : UInt32)
  | close (table : String) (fd : Nat)
  | transfer (table : String) (fd : Nat) (op : Transfer)
  | get (table : String) (fd : Nat)
  | used (table : String)
  | capacity (table : String)
  /-- Ask whether two descriptor numbers share one descriptor. -/
  | same (table : String) (fd : Nat) (other : String) (otherFd : Nat)
  /-- Ask the driver of one descriptor number to list with the handle of another. -/
  | listForeign (table : String) (fd handleFd : Nat)
  /-- Describe a table, or a descriptor of it and its record. -/
  | describe (table : String) (fd : Option Nat)
  /-- Have the process layer say which table the current process has. -/
  | setCurrent (table : Option String)
  /-- A process calls. -/
  | process (call : ProcessCall)

/-- Why a step has no result. -/
inductive Failure where
  | error (error : Error)
  | noTable
  | noDriver
  | noFilesystem
  | noRegistration
deriving DecidableEq, Repr

/-- The entry behind a descriptor number. -/
structure EntryView where
  entry : FdEntry
  references : Nat
deriving DecidableEq, Repr

/-- The result of a step. -/
inductive Value where
  | done
  | flag (value : Bool)
  | number (value : Int)
  | names (names : List String)
  | paths (paths : List Path)
  /-- Who serves a path, with the name of the driver. -/
  | resolved (driver : Option (String × Nat)) (relative : Path)
  /-- A read: the count, and the front of the buffer. -/
  | contents (count : Int) (data : List UInt8)
  | listed (next : ReadDir)
  | entry (view : EntryView)
  | text (text : String)
  /-- A descriptor and its record, described. -/
  | texts (descriptor record : String)
  /-- Whether the current table is the kernel's, and its capacity. -/
  | current (isKernel : Bool) (capacity : Nat)
  /-- What a process got, and the front of its buffer if it read. -/
  | returned (value : Int) (data : Option (List UInt8))
  /-- What a process got for listing, and the entry it has then, if one was written. -/
  | returnedEntry (value : Int) (entry : Option DirEntry)
deriving DecidableEq, Repr

mutual

/-- What is shown of a step: its answer, and the hooks called. -/
inductive StepReport where
  | mk (answer : Except Failure Value) (calls : List CallReport)

/-- What is shown of the call of a hook: of which driver or filesystem, the question, and the
steps of the script. -/
inductive CallReport where
  | mk (on : String) (question : HookCall) (steps : List StepReport)

end

end VirtualFs.Scenario
