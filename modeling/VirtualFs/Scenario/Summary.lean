import VirtualFs.Scenario.Play

/-!
# What a scenario leaves

The state after the last step: what is mounted in each file system, which files each named table has
open, and what the drivers in memory hold.
-/

namespace VirtualFs.Scenario

/-- A file system: its mount points, the number of its nodes, and its filesystem types. -/
structure VfsSummary where
  mounts : List Path
  nodeCount : Nat
  filesystems : List String
deriving DecidableEq, Repr

/-- A table: its size, and the open descriptor numbers with their entries, in ascending order. -/
structure TableSummary where
  capacity : Nat
  used : Nat
  entries : List (Nat × EntryView)
deriving DecidableEq, Repr

/-- A driver in memory. -/
structure DriverSummary where
  closes : Nat
  files : Names (List UInt8)
deriving DecidableEq, Repr

/-- The state after the last step. -/
structure Summary where
  fileSystems : List VfsSummary
  tables : Names TableSummary
  drivers : Names DriverSummary
deriving DecidableEq, Repr

namespace Summary

open Session (query queryNumber capacityOf)

/-- The open descriptor numbers of a table among `count` numbers from `fd` on. -/
def entriesFrom (t : TableId) : Nat → Nat → Playing (List (Nat × EntryView))
  | 0, _ => return []
  | count + 1, fd => do
    let here ← match ← query (.entry t fd) with
      | .ok (.entry entry references) => pure [(fd, EntryView.mk entry references)]
      | _ => pure []
    return here ++ (← entriesFrom t count (fd + 1))

/-- A table. -/
def ofTable (t : TableId) : Playing TableSummary := do
  let capacity ← capacityOf t
  return ⟨capacity, ← queryNumber (.used t), ← entriesFrom t capacity 0⟩

/-- A file system. -/
def ofVfs (v : VfsId) : Playing VfsSummary := do
  let mounts ← match ← query (.mounts v) with
    | .ok (.paths paths) => pure paths
    | _ => pure []
  let filesystems ← match ← query (.filesystems v) with
    | .ok (.names names) => pure names
    | _ => pure []
  return ⟨mounts, ← queryNumber (.nodeCount v), filesystems⟩

/-- The drivers in memory by name; of two of one name, the one made last. -/
def ofDrivers (drivers : List MockDriver) : Names DriverSummary :=
  drivers.foldl (fun summaries d =>
    if d.kind = .memory then summaries.put d.name ⟨d.closes, d.files⟩ else summaries) []

/-- The names of tables, each with the table it means. -/
def namedTables (s : Session) : Names TableId :=
  match s.kernelName with
  | none => s.tables
  | some name => s.tables.put name Store.kernelTable

/-- The state of a session with `count` file systems of its own. -/
def of (count : Nat) : Playing Summary := do
  let fileSystems ← (List.range count).mapM ofVfs
  let tables ← (namedTables (← get)).mapM fun named => do return (named.1, ← ofTable named.2)
  return ⟨fileSystems, tables, ofDrivers (← get).mocks.drivers.toList⟩

end Summary

end VirtualFs.Scenario
