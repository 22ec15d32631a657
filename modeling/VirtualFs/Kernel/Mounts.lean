import VirtualFs.Kernel.Call
import VirtualFs.Kernel.Locked

/-!
# Mounting

Registering drivers, and mounting devices through filesystems.  A filesystem is always asked with no
lock held: a driver is detached before its filesystem gives it up, and attached only after its
filesystem has made it.  If the filesystem does not give it up, it is attached again; if a new
driver cannot be attached, its filesystem gives it up at once.
-/

namespace VirtualFs.Action

/-! ### Registering -/

/-- A new record of a driver, under a number of its own. -/
def newRecord (driver : Driver) (fs : Option FileSystem) : Action Record :=
  unlocked do
    let s ← get
    set { s with nextRecord := s.nextRecord + 1 }
    return ⟨s.nextRecord, driver, fs⟩

/-- Register a driver at a path.  Its record is new, and is not used for anything else where the
registration fails. -/
def register (v : VfsId) (path : Path) (driver : Driver) (fs : Option FileSystem) :
    Action (Except Error Registration) := do
  let record ← newRecord driver fs
  match Path.absolute? path with
  | none => return .error .invalidArgument
  | some clean =>
    match ← editGraph v fun g => g.mount clean record with
    | .error e => return .error e
    | .ok node =>
      note (.registered driver.name clean)
      return .ok ⟨node, record⟩

/-- Take a registration back, if its record is still attached to its node. -/
def unregister (v : VfsId) (registration : Registration) : Action (Except Error Unit) := do
  match ← editGraph v fun g => g.detach registration.node registration.record with
  | .error e => return .error e
  | .ok record =>
    note (.unregistered record.driver.name)
    return .ok ()

/-- Detach the driver at a path. -/
def detach (v : VfsId) (path : Path) : Action (Except Error Record) := do
  match Path.absolute? path with
  | none => return .error .invalidArgument
  | some clean =>
    match ← editGraph v fun g => g.unmount clean with
    | .error e => return .error e
    | .ok record =>
      note (.detached record.driver.name clean)
      return .ok record

/-- Attach a record again that was detached from a path. -/
def reattach (v : VfsId) (path : Path) (record : Record) : Action (Except Error Unit) := do
  match Path.absolute? path with
  | none => return .error .invalidArgument
  | some clean =>
    match ← editGraph v fun g => g.attach clean record with
    | .error e => return .error e
    | .ok _ => return .ok ()

/-! ### Filesystems -/

/-- Register a filesystem, unless its type name is taken. -/
def registerFilesystem (v : VfsId) (fs : FileSystem) : Action (Except Error Unit) := do
  let isNew ← locked (.filesystems v) do
    let i ← Section.getVfs v
    if i.filesystems.any (·.fsType = fs.fsType) then
      return false
    Section.setVfs v { i with filesystems := i.filesystems ++ [fs] }
    return true
  if isNew then
    note (.filesystemRegistered fs.fsType)
    return .ok ()
  else
    return .error .alreadyExists

/-- The filesystems of a file system. -/
def filesystems (v : VfsId) : Action (List FileSystem) :=
  locked (.filesystems v) do return (← Section.getVfs v).filesystems

/-- Ask the first of the filesystems to take a device. -/
def probe (v : VfsId) (path device : Path) : List FileSystem → Action Progress
  | [] => return .failed .notSupported
  | fs :: rest => ask (.mount fs path device) (.probing v path device fs rest)

/-- Mount a device: with the filesystem of a given type, or with the first that takes it. -/
def mount (v : VfsId) (path device : Path) (fsType : Option String) : Action Progress := do
  let known ← filesystems v
  match fsType with
  | none => probe v path device known
  | some fsType =>
    match known.find? (·.fsType = fsType) with
    | none =>
      note (.filesystemMissing fsType)
      return .failed .notFound
    | some fs => ask (.mount fs path device) (.mounting v path device fs)

/-- Register the driver that a filesystem has made; when that fails, the filesystem gives it up. -/
def mountMade (v : VfsId) (path device : Path) (fs : FileSystem) (driver : Driver) :
    Action Progress := do
  match ← register v path driver (some fs) with
  | .ok _ =>
    note (.mounted device path fs.fsType)
    return .succeeded .done
  | .error e => ask (.unmount fs driver) (.undoing device e)

/-- The filesystem has been asked to give up a driver that could not be mounted. -/
def undone (device : Path) (error : Error) (failure : Option Error) : Action Progress := do
  match failure with
  | some e => note (.undoFailed device e)
  | none => pure ()
  return .failed error

/-- Unmount the driver at a path. -/
def unmount (v : VfsId) (path : Path) : Action Progress := do
  match ← detach v path with
  | .error e => return .failed e
  | .ok record =>
    match record.fs with
    | some fs => ask (.unmount fs record.driver) (.unmounting v path record)
    | none =>
      note (.unmounted path)
      return .succeeded .done

/-- The filesystem has been asked to give up a driver that was detached. -/
def unmounted (v : VfsId) (path : Path) (record : Record) (failure : Option Error) :
    Action Progress := do
  match failure with
  | none =>
    note (.unmounted path)
    return .succeeded .done
  | some e =>
    match ← reattach v path record with
    | .ok _ => pure ()
    | .error lost => note (.restoreFailed path lost)
    return .failed e

end VirtualFs.Action
