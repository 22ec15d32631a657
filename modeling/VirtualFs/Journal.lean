import VirtualFs.Driver
import VirtualFs.Mount.Edit

/-!
# The journal

Everything the file system reports while it works, as notices with a severity and a line of text.
-/

namespace VirtualFs

/-- How severe a notice is. -/
inductive Level where
  | error
  | warn
  | info
  | debug
deriving DecidableEq, Repr

namespace Level

/-- The place of a level, the most severe first. -/
def rank : Level → Nat
  | error => 1
  | warn => 2
  | info => 3
  | debug => 4

/-- The level in capitals. -/
def name : Level → String
  | error => "ERROR"
  | warn => "WARN"
  | info => "INFO"
  | debug => "DEBUG"

end Level

/-- An operation that a process can ask for. -/
inductive ProcessOp where
  | open
  | close
  | read
  | write
  | readdir
  | control
deriving DecidableEq, Repr

/-- The operation in words. -/
def ProcessOp.name : ProcessOp → String
  | .open => "open"
  | .close => "close"
  | .read => "read"
  | .write => "write"
  | .readdir => "readdir"
  | .control => "ioctl"

/-- One line of the journal. -/
inductive Notice where
  /-- A mount graph changed. -/
  | changed (change : Mount.Change)
  | registered (driver : String) (path : Path)
  | unregistered (driver : String)
  | detached (driver : String) (path : Path)
  | filesystemRegistered (fsType : String)
  | filesystemMissing (fsType : String)
  /-- A filesystem does not take a device. -/
  | rejected (fsType : String) (device : Path) (error : Error)
  | mounted (device path : Path) (fsType : String)
  /-- A mount was undone, and the filesystem failed to give its driver up. -/
  | undoFailed (device : Path) (error : Error)
  | unmounted (path : Path)
  /-- A failed unmount could not put the driver back. -/
  | restoreFailed (path : Path) (error : Error)
  | opened (path : Path) (driver : String)
  /-- A file was opened for which there was no descriptor, and the driver failed to close it. -/
  | closeAfterFullFailed (path : Path) (error : Error)
  | closed (path : Path)
  | closeFailed (path : Path) (error : Error)
  /-- An operation for a process failed. -/
  | processFailed (op : ProcessOp) (error : Error)
deriving DecidableEq, Repr

namespace Notice

/-- How severe a notice is. -/
def level : Notice → Level
  | filesystemMissing _ | undoFailed _ _ | restoreFailed _ _ | closeAfterFullFailed _ _ => .error
  | closeFailed _ _ => .warn
  | registered _ _ | unregistered _ | filesystemRegistered _ | mounted _ _ _ | unmounted _ => .info
  | changed _ | detached _ _ | rejected _ _ _ | opened _ _ | closed _ | processFailed _ _ => .debug

/-- The line that reports a change of a mount graph. -/
def ofChange : Mount.Change → String
  | .added segment id => s!"vfs: add mount node {Path.text segment} (NodeId({id}))"
  | .removed segment id => s!"vfs: remove mount node {Path.text segment} (NodeId({id}))"
  | .attached path => s!"vfs: driver attached at {Path.text path}"

/-- The notice as a line. -/
def message : Notice → String
  | changed change => ofChange change
  | registered driver path =>
    let shown := if path.isEmpty then "/" else Path.text path
    s!"vfs: registered driver {driver} at {shown}"
  | unregistered driver => s!"vfs: unregistered driver {driver}"
  | detached driver path => s!"vfs: detached {driver} from {Path.text path}"
  | filesystemRegistered fsType => s!"vfs: registered filesystem {fsType}"
  | filesystemMissing fsType => s!"vfs: could not find filesystem {fsType}"
  | rejected fsType device error =>
    s!"vfs: {fsType} rejected {Path.text device}: {error.message}"
  | mounted device path fsType =>
    s!"vfs: mounted {Path.text device} on {Path.text path} as {fsType}"
  | undoFailed device error =>
    s!"vfs: rollback umount of {Path.text device} failed: {error.message}"
  | unmounted path => s!"vfs: unmounted {Path.text path}"
  | restoreFailed path error =>
    s!"vfs: cannot restore mount {Path.text path} after failed umount: {error.message}"
  | opened path driver => s!"vfs: opened {Path.text path} via {driver}"
  | closeAfterFullFailed path error =>
    s!"vfs: close {Path.text path} after failed install: {error.message}"
  | closed path => s!"vfs: closed {Path.text path}"
  | closeFailed path error => s!"vfs: close {Path.text path} failed: {error.message}"
  | processFailed op error => s!"vfs: {op.name} failed: {error.message}"

end Notice

end VirtualFs
