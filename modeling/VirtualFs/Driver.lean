import VirtualFs.Error
import VirtualFs.OpenFlags
import VirtualFs.Path.Basic

/-!
# Drivers and filesystems

A driver serves the files below its mount point.  Most drivers come from outside and are known here
by an identity and a name; what they do is asked of them hook by hook (`HookCall`), and they answer
in their own time (`Reply`).  One kind of driver is built in: the *directory* driver of a file
system, which lists the mount nodes below a node that has no driver of its own.

A filesystem also comes from outside.  It makes a driver when a device is mounted and is told when
that driver is unmounted.

A driver is mounted as a *record*, which also says which filesystem made it.  Two records are the
same only if they have the same number, however alike their drivers are.
-/

namespace VirtualFs

/-- A file system: a mount table, its directory driver and its filesystem types. -/
abbrev VfsId := Nat

/-- A descriptor table. -/
abbrev TableId := Nat

/-- A driver from outside. -/
structure External where
  id : Nat
  name : String
deriving DecidableEq, Repr

/-- A driver. -/
inductive Driver where
  /-- A driver from outside. -/
  | external (driver : External)
  /-- The driver that lists the mount nodes of a file system. -/
  | directory (vfs : VfsId)
deriving DecidableEq, Repr

/-- The name under which a driver appears in log lines. -/
def Driver.name : Driver → String
  | external driver => driver.name
  | directory _ => "generic-node"

/-- A filesystem and the name of its type. -/
structure FileSystem where
  id : Nat
  fsType : String
deriving DecidableEq, Repr

/-- A mounted driver, with the filesystem that made it if one did. -/
structure Record where
  id : Nat
  driver : Driver
  fs : Option FileSystem
deriving DecidableEq, Repr

/-- What a driver answers to an open: the file as the driver knows it. -/
inductive Handle where
  /-- The handle with this number of a driver from outside. -/
  | external (serial : Nat)
  /-- An open directory of mount nodes. -/
  | directory (serial : Nat)
deriving DecidableEq, Repr

/-- What a directory entry stands for. -/
inductive FileKind where
  | file
  | directory
deriving DecidableEq, Repr

/-- A directory entry. -/
structure DirEntry where
  name : Segment
  kind : FileKind
deriving DecidableEq, Repr

/-- What a directory answers when it is read. -/
inductive ReadDir where
  | entry (entry : DirEntry)
  /-- There are no more entries. -/
  | finished
deriving DecidableEq, Repr

/-- A question to a driver or filesystem from outside. -/
inductive HookCall where
  /-- Open the file at a path relative to the mount point. -/
  | open (driver : External) (path : Path) (flags : OpenFlags) (mode : UInt32)
  | close (driver : External) (handle : Handle)
  /-- Read into a buffer of `length` bytes. -/
  | read (driver : External) (handle : Handle) (length : Nat)
  | write (driver : External) (handle : Handle) (data : List UInt8)
  | readdir (driver : External) (handle : Handle)
  | control (driver : External) (handle : Handle) (op : UInt32) (argument : UInt64)
  /-- Make a driver for a device, to be mounted at a path. -/
  | mount (fs : FileSystem) (path device : Path)
  /-- Give up a driver that the filesystem made. -/
  | unmount (fs : FileSystem) (driver : Driver)
deriving DecidableEq, Repr

/-- An answer to a question. -/
inductive Reply where
  /-- Any question can fail. -/
  | failed (error : Error)
  /-- A close or unmount succeeded. -/
  | done
  /-- An open succeeded, with a new handle. -/
  | opened
  /-- A read or write moved `count` bytes; a read left `data` at the front of the buffer. -/
  | moved (count : UInt64) (data : List UInt8)
  | listed (next : ReadDir)
  | controlled (value : Int64)
  /-- A mount made a driver. -/
  | mounted (driver : Driver)
deriving DecidableEq, Repr

/-- The credential of a registration: the node and the record that was attached to it. -/
structure Registration where
  node : Nat
  record : Record
deriving DecidableEq, Repr

end VirtualFs
