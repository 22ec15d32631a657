import VirtualFs.Kernel.Directories
import VirtualFs.Kernel.Tables

/-!
# Files

Opening, using and closing files.  The driver that serves a path opens the file and is then the
one that every operation on the descriptor goes to, whatever is mounted later.

A slot is taken for a file only after its driver has opened it; if there is none, the driver
closes the file again.  A slot is given up only after the driver has closed its file; if the
driver refuses, the slot is open as before.
-/

namespace VirtualFs.Action

/-! ### Opening -/

/-- A new descriptor, with one reference. -/
def newDescriptor (path : Path) (handle : Handle) (record : Record) : Action Descriptor :=
  unlocked do
    let s ← get
    set { s with references := s.references.create }
    return ⟨s.references.next, path, handle, record⟩

/-- The driver has opened a file: put it into a slot. -/
def openedFile (t : TableId) (path : Path) (record : Record) (handle : Handle)
    (flags : OpenFlags) (mode : UInt32) : Action Progress := do
  note (.opened path record.driver.name)
  let d ← newDescriptor path handle record
  match ← tryEditTable t fun table => table.install ⟨d, flags, mode⟩ with
  | .ok fd => return .succeeded (.fd fd)
  | .error e =>
    match record.driver with
    | .external driver => ask (.close driver handle) (.abandoning t path)
    | .directory _ => return .failed e

/-- A new handle of a driver from outside. -/
def newHandle : Action Handle :=
  unlocked do
    let s ← get
    set { s with nextHandle := s.nextHandle + 1 }
    return .external s.nextHandle

/-- Open the file at a path. -/
def openFile (v : VfsId) (t : TableId) (path : Path) (flags : OpenFlags) (mode : UInt32) :
    Action Progress := do
  match Path.absolute? path with
  | none => return .failed .invalidArgument
  | some clean =>
    match ← onGraph v fun g => pure (g.resolve clean) with
    | .error e => return .failed e
    | .ok resolution =>
      let relative := resolution.relative clean
      let record ← match resolution with
        | .driver record _ => pure record
        | .node => unlocked do return (← Section.getVfs v).directories
      match record.driver with
      | .external driver =>
        ask (.open driver relative flags mode) (.opening t clean record flags mode)
      | .directory w =>
        match ← openDirectory w relative with
        | .error e => return .failed e
        | .ok handle => openedFile t clean record handle flags mode

/-- The driver has been asked to close a file for which there was no slot. -/
def abandoned (path : Path) (failure : Option Error) : Action Progress := do
  match failure with
  | some e => note (.closeAfterFullFailed path e)
  | none => pure ()
  return .failed .tooManyOpenFiles

/-! ### Closing -/

/-- Give up the slot of a file that is closed. -/
def vacate (t : TableId) (fd : Nat) : Action Progress := do
  editTable t fun table => do return ((), ← table.vacate fd)
  return .succeeded .done

/-- The driver has been asked to close the file of a slot. -/
def closed (t : TableId) (fd : Nat) (entry : FdEntry) (failure : Option Error) :
    Action Progress := do
  let d := entry.descriptor
  match failure with
  | some e =>
    note (.closeFailed d.path e)
    editReferences d fun r => do return ((), ← r.restore d)
    editTable t fun table => do return ((), ← table.setSlot fd (.opened entry))
    return .failed e
  | none =>
    note (.closed d.path)
    vacate t fd

/-- Close the file of a slot. -/
def closeFile (t : TableId) (fd : Nat) : Action Progress := do
  match ← tryEditTable t fun table => pure (table.startClosing fd) with
  | .error e => return .failed e
  | .ok entry =>
    let d := entry.descriptor
    match ← editReferences d fun r => r.release d with
    | .shared => vacate t fd
    | .last =>
      match d.record.driver with
      | .external driver => ask (.close driver d.handle) (.closing t fd entry)
      | .directory _ => closed t fd entry none

/-! ### Operations -/

/-- The entry of an open slot that has a permission. -/
def permitted (t : TableId) (fd : Nat) (permission : OpenFlags) :
    Action (Except Error FdEntry) := do
  match ← onTable t fun table => pure (table.get fd) with
  | .error e => return .error e
  | .ok entry =>
    return if entry.flags.contains permission then .ok entry else .error .permissionDenied

/-- An operation on an open file. -/
def transfer (t : TableId) (fd : Nat) (op : Transfer) : Action Progress := do
  match ← permitted t fd op.permission with
  | .error e => return .failed e
  | .ok entry =>
    let d := entry.descriptor
    match d.record.driver, op with
    | .external driver, op => ask (op.question driver d.handle) (.transferring t op)
    | .directory v, .readdir =>
      match ← readDirectory v d.handle with
      | .error e => return .failed e
      | .ok next => return .succeeded (.listed next)
    | .directory _, _ => return .failed .notSupported

end VirtualFs.Action
