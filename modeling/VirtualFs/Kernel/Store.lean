import VirtualFs.Descriptor.References
import VirtualFs.Mount.Listing
import VirtualFs.Mount.Edit

/-!
# What the kernel keeps

The state of all file systems and descriptor tables together (`Store`), and the computations on it
(`Section`).  Objects are named by numbers that are given out once and in ascending order: file
systems, tables, descriptors, open directories, records and handles.

A table that nothing can name any more is *unreachable*: it is still being emptied, and afterwards
its number names nothing.
-/

namespace VirtualFs

/-- A file system. -/
structure Instance where
  /-- What is mounted where. -/
  graph : Mount.Graph Record
  /-- The filesystem types, in the order in which they were registered. -/
  filesystems : List FileSystem
  /-- The record of the driver that serves nodes without a driver of their own. -/
  directories : Record
deriving DecidableEq, Repr

/-- How far an open directory has been read. -/
inductive Cursor where
  | start
  /-- The last entry had this name. -/
  | after (name : Segment)
  /-- The end has been reported. -/
  | finished
deriving DecidableEq, Repr

/-- An open directory of mount nodes: the full path of its node, and a cursor. -/
structure Directory where
  path : Path
  cursor : Cursor
deriving DecidableEq, Repr

/-- A descriptor table, and whether anything can name it. -/
structure TableState where
  table : FdTable
  reachable : Bool
deriving DecidableEq, Repr

/-- The state of all file systems and descriptor tables. -/
structure Store where
  instances : Array Instance
  tables : Array (Option TableState)
  references : References
  openDirectories : Array Directory
  nextRecord : Nat
  nextHandle : Nat
deriving DecidableEq, Repr

namespace Store

/-- The table that belongs to no process. -/
def kernelTable : TableId := 0

/-- No file system, and only the kernel's own table. -/
def initial : Store :=
  { instances := #[]
    tables := #[some ⟨FdTable.ofCapacity Limits.defaultMaxFds, true⟩]
    references := ⟨#[]⟩
    openDirectories := #[]
    nextRecord := 0
    nextHandle := 0 }

/-- The state of a table that is not gone. -/
def tableState? (s : Store) (t : TableId) : Option TableState :=
  s.tables.getD t none

/-- A table that is not gone. -/
def table? (s : Store) (t : TableId) : Option FdTable :=
  (s.tableState? t).map (·.table)

/-- The file system exists. -/
def hasVfs (s : Store) (v : VfsId) : Bool :=
  decide (v < s.instances.size)

/-- The table can be named. -/
def isReachable (s : Store) (t : TableId) : Bool :=
  (s.tableState? t).any (·.reachable)

/-- What the driver needs of the kernel exists. -/
def hasDriver (s : Store) : Driver → Bool
  | .external _ => true
  | .directory v => s.hasVfs v

end Store

/-- A computation on the store. -/
abbrev Section := StateT Store Checked

namespace Section

/-- A value, or the fault of naming what does not exist. -/
def orUnknown {α : Type} : Option α → Section α
  | some a => pure a
  | none => throw .unknownObject

/-- A file system. -/
def getVfs (v : VfsId) : Section Instance := do
  orUnknown (← get).instances[v]?

/-- Put a file system in the place of an older state of it. -/
def setVfs (v : VfsId) (i : Instance) : Section Unit :=
  modify fun s => { s with instances := s.instances.setIfInBounds v i }

/-- A descriptor table. -/
def getTable (t : TableId) : Section FdTable := do
  orUnknown ((← get).table? t)

/-- Put a descriptor table in the place of an older state of it. -/
def setTable (t : TableId) (table : FdTable) : Section Unit := do
  let state ← orUnknown ((← get).tableState? t)
  modify fun s =>
    { s with tables := s.tables.setIfInBounds t (some { state with table := table }) }

/-- Put another state in the place of a table's. -/
def setTableState (t : TableId) (state : Option TableState) : Section Unit :=
  modify fun s => { s with tables := s.tables.setIfInBounds t state }

/-- Ask a mount graph. -/
def readGraph {α : Type} (v : VfsId) (read : Mount.Graph Record → Checked α) : Section α := do
  read (← getVfs v).graph

/-- Change a mount graph, and answer also with the changes to report. -/
def editGraph {α : Type} (v : VfsId)
    (edit : Mount.Graph Record → Checked (Mount.Edit Record α)) :
    Section (List Mount.Change × α) := do
  let i ← getVfs v
  let edited ← edit i.graph
  setVfs v { i with graph := edited.graph }
  return (edited.changes, edited.answer)

/-- Change a table. -/
def editTable {α : Type} (t : TableId) (edit : FdTable → Checked (α × FdTable)) : Section α := do
  let (a, table) ← edit (← getTable t)
  setTable t table
  return a

/-- Change a table, unless the change fails. -/
def tryEditTable {α : Type} (t : TableId)
    (edit : FdTable → Checked (Except Error (α × FdTable))) : Section (Except Error α) := do
  match ← edit (← getTable t) with
  | .error e => return .error e
  | .ok (a, table) =>
    setTable t table
    return .ok a

/-- Change the references to descriptors. -/
def editReferences {α : Type} (edit : References → Checked (α × References)) : Section α := do
  let (a, references) ← edit (← get).references
  modify fun s => { s with references := references }
  return a

end Section

end VirtualFs
