import VirtualFs.Kernel.Process

/-!
# Starting up

Before the file system can run, two sets of operations have to be registered: those of the
processor, without which no lock can be taken, and those of the process layer, which say which
table the current process has and how large new tables are.  Without the second the file system
already works, on the kernel's own table and with the default capacity.
-/

namespace VirtualFs

/-- What the process layer says. -/
structure ProcessOps where
  /-- The table of the current process, if there is one. -/
  current : Option TableId
  /-- The capacity of a new table. -/
  maxFds : Nat
deriving DecidableEq, Repr

/-- What has been registered so far. -/
structure Boot where
  cpu : Option (Sync.Cpu LockId)
  ops : Option ProcessOps
deriving DecidableEq, Repr

namespace Boot

/-- Nothing is registered. -/
def initial : Boot := ⟨none, none⟩

/-- The processor is registered. -/
def registerProcessor (b : Boot) (word enableMask : Sync.Word) : Boot :=
  { b with cpu := some ⟨word, enableMask, []⟩ }

/-- The process layer is registered. -/
def registerProcessOps (b : Boot) (ops : ProcessOps) : Boot :=
  { b with ops := some ops }

/-- Turn interrupts off, which needs the processor. -/
def guarded (b : Boot) : Checked (Sync.Guard × Boot) :=
  match b.cpu with
  | none => .error .processorMissing
  | some cpu => .ok (cpu.guarded.1, { b with cpu := some cpu.guarded.2 })

/-- What the process layer says, where it has to be there. -/
def processOps (b : Boot) : Checked ProcessOps :=
  match b.ops with
  | none => .error .processOpsMissing
  | some ops => .ok ops

/-- The capacity of a new table for which nobody asks for another. -/
def capacity (b : Boot) : Nat :=
  match b.ops with
  | none => Limits.defaultMaxFds
  | some ops => ops.maxFds

/-- The table that calls of processes work on. -/
def currentTable (b : Boot) : TableId :=
  Process.currentTable (b.ops.bind (·.current))

end Boot

end VirtualFs
