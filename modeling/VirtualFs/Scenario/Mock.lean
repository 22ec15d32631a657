import VirtualFs.Scenario.Step

/-!
# Stand-ins for drivers and filesystems

What the drivers and filesystems of a scenario do when no script says otherwise.  A driver in memory
keeps files by name; each of its open files has a position, which reading and writing move on.
-/

namespace VirtualFs.Scenario

/-- What a stand-in does with its hooks. -/
inductive MockKind where
  | memory
  | openOnly
  | bare
deriving DecidableEq, Repr

/-- A stand-in for a driver: the name the scenario gives it, how often it has closed, its files. -/
structure MockDriver where
  name : String
  kind : MockKind
  closes : Nat
  files : Names (List UInt8)
deriving DecidableEq, Repr

/-- The name under which a stand-in appears in log lines. -/
def MockDriver.logName (d : MockDriver) : String :=
  match d.kind with
  | .memory => d.name
  | .openOnly | .bare => "anonymous"

/-- A hook of the stand-in is shown, and can be scripted. -/
def MockDriver.shows (d : MockDriver) (hook : Hook) : Bool :=
  match d.kind with
  | .memory => true
  | .openOnly => hook = .open
  | .bare => false

/-- A stand-in for a filesystem: which devices it takes, the files of the drivers it makes, and
how many it has made. -/
structure MockFilesystem where
  name : String
  fsType : String
  accept : Path
  files : Names (List UInt8)
  plain : Bool
  made : Nat
deriving DecidableEq, Repr

/-- An open file of a stand-in. -/
structure OpenFile where
  file : String
  position : Nat
deriving DecidableEq, Repr

/-- What drivers in memory know: the stand-ins by number, and the open files by handle. -/
structure Mocks where
  drivers : Array MockDriver
  openFiles : Array OpenFile
deriving DecidableEq, Repr

/-- The bytes with `data` written over them from `position` on; a gap is filled with zeros. -/
def overwrite (contents : List UInt8) (position : Nat) (data : List UInt8) : List UInt8 :=
  let before := contents.take position
  let gap := List.replicate (position - contents.length) 0
  before ++ gap ++ data ++ contents.drop (position + data.length)

/-- The number that a control operation of a driver in memory gives. -/
def controlValue (op : UInt32) (argument : UInt64) : Int64 :=
  (op.toUInt64 * 1000 + argument).toInt64

namespace Mocks

/-- The mocks with another state of driver `id`. -/
def setDriver (m : Mocks) (id : Nat) (d : MockDriver) : Mocks :=
  { m with drivers := m.drivers.setIfInBounds id d }

/-- The open file of a handle, with its contents in a driver; an error for handles of other kinds
and for files that are gone. -/
def contents (m : Mocks) (d : MockDriver) : Handle → Except Error (Nat × OpenFile × List UInt8)
  | .directory _ => .error .invalidArgument
  | .external serial =>
    match m.openFiles[serial]? with
    | none => .error .invalidArgument
    | some f =>
      match d.files.find? f.file with
      | none => .error .ioError
      | some contents => .ok (serial, f, contents)

/-- A new handle for a file. -/
def openFile (m : Mocks) (file : String) : Mocks :=
  { m with openFiles := m.openFiles.push ⟨file, 0⟩ }

/-- The mocks after a position has moved. -/
def move (m : Mocks) (serial : Nat) (f : OpenFile) (n : Nat) : Mocks :=
  { m with openFiles := m.openFiles.setIfInBounds serial { f with position := f.position + n } }

/-- What driver `id`, which keeps files in memory, does. -/
def memory (m : Mocks) (id : Nat) (d : MockDriver) : HookCall → Reply × Mocks
  | .open _ path flags _ =>
    let file := Path.text path
    match d.files.find? file with
    | some _ => (.opened, m.openFile file)
    | none =>
      if flags.writable then
        (.opened, (m.setDriver id { d with files := d.files.put file [] }).openFile file)
      else (.failed .notFound, m)
  | .close _ _ => (.done, m.setDriver id { d with closes := d.closes + 1 })
  | .read _ handle length =>
    match m.contents d handle with
    | .error e => (.failed e, m)
    | .ok (serial, f, contents) =>
      let data := (contents.drop f.position).take length
      (.moved (UInt64.ofNat data.length) data, m.move serial f data.length)
  | .write _ handle data =>
    match m.contents d handle with
    | .error e => (.failed e, m)
    | .ok (serial, f, contents) =>
      let files := d.files.put f.file (overwrite contents f.position data)
      (.moved (UInt64.ofNat data.length) [],
        (m.setDriver id { d with files := files }).move serial f data.length)
  | .control _ _ op argument => (.controlled (controlValue op argument), m)
  | _ => (.failed .notSupported, m)

/-- What driver `id` does. -/
def ofDriver (m : Mocks) (id : Nat) (question : HookCall) : Reply × Mocks :=
  match m.drivers[id]? with
  | none => (.failed .notSupported, m)
  | some d =>
    match d.kind, question with
    | .memory, question => m.memory id d question
    | .openOnly, .open _ path _ _ => (.opened, m.openFile (Path.text path))
    | _, .close _ _ => (.done, m)
    | _, _ => (.failed .notSupported, m)

/-- A new driver in memory, and the name and number under which the kernel knows it. -/
def newDriver (m : Mocks) (d : MockDriver) : External × Mocks :=
  (⟨m.drivers.size, d.logName⟩, { m with drivers := m.drivers.push d })

/-- What a filesystem does: it makes a driver for a device that it takes, and gives up any. -/
def ofFilesystem (m : Mocks) (fs : MockFilesystem) :
    HookCall → Reply × Mocks × MockFilesystem
  | .mount _ _ device =>
    if fs.accept.isPrefixOf device then
      let name := s!"{fs.name}:{fs.made}"
      let (made, m) := m.newDriver ⟨name, .memory, 0, fs.files⟩
      (.mounted (.external made), m, { fs with made := fs.made + 1 })
    else (.failed .notSupported, m, fs)
  | .unmount _ _ => (.done, m, fs)
  | _ => (.failed .notSupported, m, fs)

end Mocks

/-- The reply that a scripted result stands for, if it can take the place of the hook. -/
def Scripted.reply? : Scripted → Hook → Option Reply
  | .failure error, _ => some (.failed error)
  | .number n, .read | .number n, .write => some (.moved (UInt64.ofInt n) [])
  | .number n, .control => some (.controlled (Int64.ofInt n))
  | .next entry, .readdir => some (.listed entry)
  | _, _ => none

end VirtualFs.Scenario
