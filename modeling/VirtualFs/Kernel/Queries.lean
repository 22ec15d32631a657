import VirtualFs.Kernel.Mounts

/-!
# Questions to the kernel

What can be asked without changing anything: the entry behind a descriptor number, how full a table
is, who serves a path, what is mounted, and which filesystem types there are.
-/

namespace VirtualFs.Action

/-- The entry of an open slot and the references to its descriptor. -/
def entry (t : TableId) (fd : Nat) : Action (Except Error Answer) := do
  match ← onTable t fun table => pure (table.get fd) with
  | .error e => return .error e
  | .ok entry =>
    let id := entry.descriptor.id
    let references ← locked (.references id) do return (← get).references.count id
    return .ok (.entry entry references)

/-- Ask about the clean form of a path that may be used. -/
def onClean (v : VfsId) (path : Path) (ask : Mount.Graph Record → Path → Bool) :
    Action (Except Error Answer) := do
  match Path.absolute? path with
  | none => return .ok (.flag false)
  | some clean => return .ok (.flag (← onGraph v fun g => pure (ask g clean)))

/-- Answer a question. -/
def query : Query → Action (Except Error Answer)
  | .entry t fd => entry t fd
  | .used t => do return .ok (.number (← onTable t FdTable.used))
  | .resolve v path => do
    return (← onGraph v fun g => pure (g.resolve path)).map .resolved
  | .contains v path => onClean v path fun g clean => g.contains clean
  | .isMounted v path => onClean v path fun g clean => (g.mounted? clean).isSome
  | .mounts v => do return .ok (.paths (← onGraph v Mount.Graph.mountPaths))
  | .nodeCount v => do return .ok (.number (← onGraph v fun g => pure g.live))
  | .filesystems v => do return .ok (.names ((← filesystems v).map (·.fsType)))
  | .hasFilesystem v fsType => do
    return .ok (.flag ((← filesystems v).any (·.fsType = fsType)))

end VirtualFs.Action
