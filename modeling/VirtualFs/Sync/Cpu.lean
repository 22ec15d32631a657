/-!
# Locks and the interrupt word

A processor has one interrupt word; an execution that must not be interrupted clears the enable
bits of it and later puts the word back as it was.  A spin lock does so for as long as it is held:
it keeps the word found when it was taken and restores that word when it is released.  A guard
does the same without a lock.

`Cpu ι` is the word together with the locks that are held, each with the word it will restore.  A
lock is held exactly while it is listed, and releases may come in any order: each puts back the
word of its own acquisition.

* `savedBy_acquire`: the lock taken saves the word found, and the others keep theirs.
* `unlock?_acquire`, `release_acquire`: releasing the lock taken last undoes its acquisition.
-/

namespace VirtualFs.Sync

/-- The interrupt word. -/
abbrev Word := UInt64

/-- The interrupt word, which of its bits enable interrupts, and the locks held, the one taken
last first. -/
structure Cpu (ι : Type) where
  word : Word
  enableMask : Word
  held : List (ι × Word)
deriving DecidableEq, Repr

/-- An interrupt guard: the word to restore. -/
structure Guard where
  saved : Word
deriving DecidableEq, Repr

namespace Cpu

variable {ι : Type}

/-- The processor with interrupts off: the enable bits are cleared. -/
def disable (cpu : Cpu ι) : Cpu ι :=
  { cpu with word := cpu.word &&& ~~~cpu.enableMask }

/-- The processor with the word set to `word`. -/
def restore (cpu : Cpu ι) (word : Word) : Cpu ι :=
  { cpu with word := word }

/-- A guard on the word as it is, and interrupts off. -/
def guarded (cpu : Cpu ι) : Guard × Cpu ι :=
  (⟨cpu.word⟩, cpu.disable)

/-- The guard is gone: the word is as it was before. -/
def dropGuard (cpu : Cpu ι) (g : Guard) : Cpu ι :=
  cpu.restore g.saved

/-- The guard was made while interrupts were on. -/
def wasEnabled (cpu : Cpu ι) (g : Guard) : Bool :=
  g.saved &&& cpu.enableMask != 0

variable [DecidableEq ι]

/-- The word that lock `i` will restore, while it is held. -/
def savedBy (cpu : Cpu ι) (i : ι) : Option Word :=
  cpu.held.lookup i

/-- Lock `i` is held. -/
def isLocked (cpu : Cpu ι) (i : ι) : Bool :=
  (cpu.savedBy i).isSome

/-- Interrupts off and lock `i` held. -/
def acquire (cpu : Cpu ι) (i : ι) : Cpu ι :=
  { cpu.disable with held := (i, cpu.word) :: cpu.held }

/-- Take lock `i`; nothing if it is held, where the attempt would wait for ever. -/
def lock? (cpu : Cpu ι) (i : ι) : Option (Cpu ι) :=
  if cpu.isLocked i then none else some (cpu.acquire i)

/-- Take lock `i` if it is free.  A failed attempt also turns interrupts off for a moment and
restores the word at once. -/
def tryLock (cpu : Cpu ι) (i : ι) : Bool × Cpu ι :=
  if cpu.isLocked i then (false, cpu.disable.restore cpu.word) else (true, cpu.acquire i)

/-- Lock `i` is no longer held, and the word stays as it is. -/
def forget (cpu : Cpu ι) (i : ι) : Cpu ι :=
  { cpu with held := cpu.held.eraseP (·.1 = i) }

/-- Release lock `i` and restore the word it saved; nothing if it is free. -/
def unlock? (cpu : Cpu ι) (i : ι) : Option (Cpu ι) :=
  (cpu.savedBy i).map fun saved => (cpu.forget i).restore saved

/-- Release lock `i`, which its holder knows to be held. -/
def release (cpu : Cpu ι) (i : ι) : Cpu ι :=
  (cpu.unlock? i).getD cpu

theorem savedBy_acquire (cpu : Cpu ι) (i j : ι) :
    (cpu.acquire i).savedBy j = if j = i then some cpu.word else cpu.savedBy j := by
  simp only [savedBy, acquire, disable, List.lookup_cons]
  split <;> simp_all

theorem unlock?_acquire (cpu : Cpu ι) (i : ι) : (cpu.acquire i).unlock? i = some cpu := by
  rw [unlock?, savedBy_acquire, if_pos rfl]
  simp [forget, acquire, disable, restore]

/-- A lock taken and released at once leaves the processor as it was. -/
theorem release_acquire (cpu : Cpu ι) (i : ι) : (cpu.acquire i).release i = cpu := by
  rw [release, unlock?_acquire]
  rfl

end Cpu

end VirtualFs.Sync
