import VirtualFs.Names
import VirtualFs.Sync.Cpu

/-!
# Named locks and guards

A set of spin locks, each protecting one signed number, and of interrupt guards, all under names,
with every operation that locks (`Locker.onLock`) and guards (`Locker.onGuard`) offer, and runs of
such operations (`Locker.run`).  A lock that is replaced or given up under its name goes without
being released: nothing restores the interrupt word for it.
-/

namespace VirtualFs.Sync

/-- Named locks with their numbers, named guards, the processor, and how often interrupts were
turned off. -/
structure Locker where
  cpu : Cpu String
  values : Names Int64
  guards : Names Guard
  disables : Nat

/-- One operation on a lock. -/
inductive LockOp where
  /-- Make a free lock around a number. -/
  | make (value : Int64)
  /-- Take the lock and keep it. -/
  | lock
  /-- Take the lock if it is free, and keep it. -/
  | tryLock
  /-- Release the lock. -/
  | unlock
  /-- Take the lock, add to the number, release. -/
  | add (value : Int64)
  /-- The same if the lock is free. -/
  | tryAdd (value : Int64)
  /-- Ask whether the lock is held. -/
  | isLocked
  /-- Add to the number by exclusive access, without the lock. -/
  | addExclusive (value : Int64)
  /-- Take the number out and give the lock up. -/
  | intoInner
deriving DecidableEq, Repr

/-- One operation on a guard. -/
inductive GuardOp where
  /-- Make a guard; one of the same name is dropped after that. -/
  | make
  /-- Ask whether interrupts were on when the guard was made. -/
  | wasEnabled
  /-- Drop the guard. -/
  | drop
deriving DecidableEq, Repr

/-- An operation on the lock or guard of a name. -/
inductive LockerStep where
  | lock (name : String) (op : LockOp)
  | guard (name : String) (op : GuardOp)
deriving DecidableEq, Repr

/-- What an operation on a lock or guard answers. -/
inductive LockerAnswer where
  /-- It is done. -/
  | done
  | flag (value : Bool)
  | number (value : Int64)
  /-- The lock was not free, or the guard does not exist. -/
  | nothing
  /-- No lock has the name. -/
  | noLock
  /-- The lock is held, so taking it would wait for ever. -/
  | wouldDeadlock
  /-- The lock is free, so there is nothing to release. -/
  | notLocked
deriving DecidableEq, Repr

namespace Locker

/-- No locks and no guards. -/
def start (word enableMask : Word) : Locker :=
  { cpu := ⟨word, enableMask, []⟩, values := [], guards := [], disables := 0 }

/-- No locks and no guards, on a processor whose word is a single enable bit. -/
def startEnabled (enabled : Bool) : Locker :=
  start (if enabled then 1 else 0) 1

/-- Interrupts have been turned off once, with this effect on the processor. -/
def disabled (l : Locker) (cpu : Cpu String) : Locker :=
  { l with cpu := cpu, disables := l.disables + 1 }

/-- The number under `name` is `value`. -/
def store (l : Locker) (name : String) (value : Int64) : LockerAnswer × Locker :=
  (.number value, { l with values := l.values.put name value })

/-- An operation on the lock `name`, which protects `old`. -/
def onMade (l : Locker) (name : String) (old : Int64) : LockOp → LockerAnswer × Locker
  | .make value =>
    (.done, { l with cpu := l.cpu.forget name, values := l.values.put name value })
  | .lock =>
    match l.cpu.lock? name with
    | some cpu => (.done, l.disabled cpu)
    | none => (.wouldDeadlock, l)
  | .tryLock =>
    let (taken, cpu) := l.cpu.tryLock name
    (.flag taken, l.disabled cpu)
  | .unlock =>
    match l.cpu.unlock? name with
    | some cpu => (.done, { l with cpu := cpu })
    | none => (.notLocked, l)
  | .add value =>
    match l.cpu.lock? name with
    | some cpu => (l.disabled (cpu.release name)).store name (old + value)
    | none => (.wouldDeadlock, l)
  | .tryAdd value =>
    match l.cpu.tryLock name with
    | (true, cpu) => (l.disabled (cpu.release name)).store name (old + value)
    | (false, cpu) => (.nothing, l.disabled cpu)
  | .isLocked => (.flag (l.cpu.isLocked name), l)
  | .addExclusive value => l.store name (old + value)
  | .intoInner =>
    (.number old, { l with cpu := l.cpu.forget name, values := l.values.remove name })

/-- An operation on the lock `name`; only `make` does without one. -/
def onLock (l : Locker) (name : String) (op : LockOp) : LockerAnswer × Locker :=
  match l.values.find? name, op with
  | some old, op => l.onMade name old op
  | none, .make value => (.done, { l with values := l.values.put name value })
  | none, _ => (.noLock, l)

/-- An operation on the guard `name`. -/
def onGuard (l : Locker) (name : String) : GuardOp → LockerAnswer × Locker
  | .make =>
    let (made, cpu) := l.cpu.guarded
    let cpu := match l.guards.find? name with
      | some older => cpu.dropGuard older
      | none => cpu
    (.flag (cpu.wasEnabled made), { l.disabled cpu with guards := l.guards.put name made })
  | .wasEnabled =>
    match l.guards.find? name with
    | some g => (.flag (l.cpu.wasEnabled g), l)
    | none => (.nothing, l)
  | .drop =>
    match l.guards.find? name with
    | some g => (.flag true, { l with cpu := l.cpu.dropGuard g, guards := l.guards.remove name })
    | none => (.flag false, l)

/-- One operation. -/
def step (l : Locker) : LockerStep → LockerAnswer × Locker
  | .lock name op => l.onLock name op
  | .guard name op => l.onGuard name op

/-- Operations one after the other: the answer of each, and the state that it leaves. -/
def run (l : Locker) : List LockerStep → List (LockerAnswer × Locker)
  | [] => []
  | s :: rest => l.step s :: (l.step s).2.run rest

end Locker

end VirtualFs.Sync
