import VirtualFs.Descriptor.Table
import VirtualFs.Mount.Resolution

/-!
# Calls, answers and suspended calls

What can be asked of the kernel (`Call`), what it answers (`Answer`), and what is left to do of a
call while a driver or filesystem is being asked (`Frame`).
-/

namespace VirtualFs

/-- An operation on an open file. -/
inductive Transfer where
  /-- Read into a buffer of `length` bytes. -/
  | read (length : Nat)
  | write (data : List UInt8)
  | readdir
  | control (op : UInt32) (argument : UInt64)
deriving DecidableEq, Repr

/-- A question that changes nothing. -/
inductive Query where
  /-- The entry of an open slot, and the references to its descriptor. -/
  | entry (t : TableId) (fd : Nat)
  /-- The number of slots of a table that are not free. -/
  | used (t : TableId)
  /-- Who serves a path, taken as it is. -/
  | resolve (v : VfsId) (path : Path)
  /-- Whether a path is that of a node. -/
  | contains (v : VfsId) (path : Path)
  /-- Whether a driver is mounted at the very path. -/
  | isMounted (v : VfsId) (path : Path)
  | mounts (v : VfsId)
  | nodeCount (v : VfsId)
  /-- The names of the filesystem types. -/
  | filesystems (v : VfsId)
  | hasFilesystem (v : VfsId) (fsType : String)
deriving DecidableEq, Repr

/-- A call on the kernel. -/
inductive Call where
  | query (q : Query)
  /-- Make a file system whose mount graph has room for `nodeLimit` nodes. -/
  | createVfs (nodeLimit : Nat)
  | register (v : VfsId) (path : Path) (driver : Driver) (fs : Option FileSystem)
  | unregister (v : VfsId) (registration : Registration)
  | registerFilesystem (v : VfsId) (fs : FileSystem)
  /-- Mount a device, with one type of filesystem or with the first that takes it. -/
  | mount (v : VfsId) (path device : Path) (fsType : Option String)
  | unmount (v : VfsId) (path : Path)
  | createTable (capacity : Nat)
  /-- Copy a table, but not more than `budget` slots if there is a budget. -/
  | copyTable (t : TableId) (budget : Option Nat)
  /-- Close every file of a table. -/
  | destroyTable (t : TableId)
  /-- Let go of a table that nobody will name again: close every file, then forget it. -/
  | dropTable (t : TableId)
  | open (v : VfsId) (t : TableId) (path : Path) (flags : OpenFlags) (mode : UInt32)
  | close (t : TableId) (fd : Nat)
  | transfer (t : TableId) (fd : Nat) (op : Transfer)
deriving DecidableEq, Repr

/-- An answer to a call. -/
inductive Answer where
  | done
  | vfs (v : VfsId)
  | table (t : TableId)
  | fd (fd : Nat)
  /-- A read or write moved `count` bytes; a read left `data` at the front of the buffer. -/
  | moved (count : UInt64) (data : List UInt8)
  | listed (next : ReadDir)
  | controlled (value : Int64)
  | registered (registration : Registration)
  | entry (entry : FdEntry) (references : Nat)
  | number (n : Nat)
  | flag (value : Bool)
  | resolved (resolution : Mount.Resolution Record)
  | paths (paths : List Path)
  | names (names : List String)
  /-- What a process gets: a number, the front of its buffer, and a directory entry if there is
  one. -/
  | returned (value : Int) (data : List UInt8) (entry : Option DirEntry)
deriving DecidableEq, Repr

/-- Why all files of a table are closed. -/
inductive SweepPurpose where
  | destroy
  | drop
deriving DecidableEq, Repr

/-- What is left to do of a call that waits for a driver or filesystem. -/
inductive Frame where
  /-- The driver opens a file. -/
  | opening (t : TableId) (path : Path) (record : Record) (flags : OpenFlags) (mode : UInt32)
  /-- The driver closes a file for which the table had no slot. -/
  | abandoning (t : TableId) (path : Path)
  /-- The driver closes the file of a slot. -/
  | closing (t : TableId) (fd : Nat) (entry : FdEntry)
  /-- The driver closes a file of a table that is being emptied; `remaining` slots are left, the
  next of them number `next`. -/
  | sweeping (t : TableId) (purpose : SweepPurpose) (entry : FdEntry) (remaining next : Nat)
  /-- The driver closes a file of a copy that failed; the slots in `rest` are left. -/
  | unwinding (t : TableId) (entry : FdEntry) (rest : List Slot)
  /-- The driver reads, writes, lists or controls. -/
  | transferring (t : TableId) (op : Transfer)
  /-- A filesystem is asked to take a device, and those in `rest` may be asked next. -/
  | probing (v : VfsId) (path device : Path) (fs : FileSystem) (rest : List FileSystem)
  /-- The one filesystem asked for is to take a device. -/
  | mounting (v : VfsId) (path device : Path) (fs : FileSystem)
  /-- A filesystem gives up a driver that could not be mounted because of `error`. -/
  | undoing (device : Path) (error : Error)
  /-- A filesystem gives up a driver that was detached. -/
  | unmounting (v : VfsId) (path : Path) (record : Record)
deriving DecidableEq, Repr

/-- The permission that an operation on an open file needs: control counts as reading. -/
def Transfer.permission : Transfer → OpenFlags
  | .write _ => .permWrite
  | .read _ | .readdir | .control _ _ => .permRead

/-- The question to the driver that an operation on an open file is. -/
def Transfer.question (op : Transfer) (driver : External) (handle : Handle) : HookCall :=
  match op with
  | .read length => .read driver handle length
  | .write data => .write driver handle data
  | .readdir => .readdir driver handle
  | .control code argument => .control driver handle code argument

/-- The answer to an operation on an open file, if the reply is one to it. -/
def Transfer.answer? : Transfer → Reply → Option Answer
  | .read _, .moved count data => some (.moved count data)
  | .write _, .moved count _ => some (.moved count [])
  | .readdir, .listed next => some (.listed next)
  | .control _ _, .controlled value => some (.controlled value)
  | _, _ => none

/-- The table that a suspended call works on. -/
def Frame.table? : Frame → Option TableId
  | .opening t _ _ _ _ | .abandoning t _ | .closing t _ _ | .sweeping t _ _ _ _
  | .unwinding t _ _ | .transferring t _ => some t
  | .probing _ _ _ _ _ | .mounting _ _ _ _ | .undoing _ _ | .unmounting _ _ _ => none

end VirtualFs
