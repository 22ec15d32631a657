import VirtualFs.Sync.Locker

/-!
# The turns of a run of locks and guards

A turn is one operation with the state before it, its answer and the state after it.  What it
takes, releases and leaves can be read off the operation and its answer (`Turn.takes?`,
`Turn.releases?`, `Turn.leaves?`).  `Locker.Tidy.effect` says once what an operation can do to
what is held (`Turn.Effect`); from there follow

* `Turn.Effect.saved?`: what each lock and guard will restore after a turn;
* `Turn.Effect.word_of_releases`, `Turn.Effect.word_of_not_leaves`: the interrupt word after it;
* `Locker.Tidy.step`: a held lock always exists, and saves one word.
-/

namespace VirtualFs.Sync

/-- What can be held: a lock or a guard, by its name. -/
inductive Holder where
  | lock (name : String)
  | guard (name : String)
deriving DecidableEq, Repr

/-- One operation of a run, with the states around it. -/
structure Turn where
  before : Locker
  step : LockerStep
  answer : LockerAnswer
  after : Locker

/-- The turn that does this operation. -/
def Locker.turn (l : Locker) (s : LockerStep) : Turn :=
  ⟨l, s, (l.step s).1, (l.step s).2⟩

@[simp] theorem Locker.turn_before (l : Locker) (s : LockerStep) : (l.turn s).before = l := rfl

/-- The turns of a run of these operations. -/
def Locker.turns (l : Locker) : List LockerStep → List Turn
  | [] => []
  | s :: rest => l.turn s :: (l.step s).2.turns rest

namespace Turn

/-- What the turn takes: a lock that it was given, or a new guard. -/
def takes? (t : Turn) : Option Holder :=
  match t.step, t.answer with
  | .lock name .lock, .done => some (.lock name)
  | .lock name .tryLock, .flag true => some (.lock name)
  | .guard name .make, _ => some (.guard name)
  | _, _ => none

/-- What the turn gives back, so that its word comes back: an unlocked lock, or a guard that is
dropped, also by a new one of its name. -/
def releases? (t : Turn) : Option Holder :=
  match t.step with
  | .lock name .unlock => some (.lock name)
  | .guard name .make => some (.guard name)
  | .guard name .drop => some (.guard name)
  | _ => none

/-- What is not held any more from the turn on: what it releases, and a lock that it replaces or
gives up. -/
def leaves? (t : Turn) : Option Holder :=
  match t.step with
  | .lock name (.make _) => some (.lock name)
  | .lock name .intoInner => some (.lock name)
  | _ => t.releases?

theorem leaves?_of_releases? {t : Turn} {h : Holder} (hr : t.releases? = some h) :
    t.leaves? = some h := by
  unfold leaves?
  split <;> simp_all [releases?]

end Turn

/-- The word that `h` will restore, while it is held. -/
def Locker.saved? (l : Locker) : Holder → Option Word
  | .lock name => l.cpu.savedBy name
  | .guard name => (l.guards.find? name).map (·.saved)

/-- A key that is not listed is not found. -/
theorem lookup_eq_none_of_notMem {held : List (String × Word)} {i : String}
    (h : i ∉ held.map Prod.fst) : held.lookup i = none := by
  refine List.lookup_eq_none_iff.mpr fun p hp => ?_
  have hne : i ≠ p.1 := fun e => h (by rw [e]; exact List.mem_map_of_mem hp)
  simpa using hne

/-- Once a lock is forgotten it saves nothing, and the others save what they did. -/
theorem Cpu.savedBy_forget {cpu : Cpu String} (hc : (cpu.held.map Prod.fst).Nodup)
    (i j : String) : (cpu.forget i).savedBy j = if j = i then none else cpu.savedBy j := by
  obtain ⟨word, mask, held⟩ := cpu
  simp only [savedBy, forget] at *
  induction held with
  | nil => simp
  | cons entry rest ih =>
    obtain ⟨k, w⟩ := entry
    obtain ⟨hfresh, hrest⟩ := List.nodup_cons.mp hc
    by_cases hj : j = k
    · by_cases hk : k = i
      · simpa [hj, hk] using lookup_eq_none_of_notMem (hk ▸ hfresh)
      · simp [hj, hk]
    · have hne : (j == k) = false := beq_false_of_ne hj
      by_cases hk : k = i
      · subst hk
        simp [hj, List.lookup_cons, hne]
      · simpa [hk, List.lookup_cons, hne] using ih hrest

@[simp] theorem Cpu.forget_word (cpu : Cpu String) (i : String) :
    (cpu.forget i).word = cpu.word := rfl

@[simp] theorem Cpu.savedBy_restore (cpu : Cpu String) (w : Word) (i : String) :
    (cpu.restore w).savedBy i = cpu.savedBy i := rfl

/-- What every run keeps: each held lock exists, and saves one word. -/
structure Locker.Tidy (l : Locker) : Prop where
  exists_of_held : ∀ n, l.cpu.savedBy n ≠ none → l.values.find? n ≠ none
  once : (l.cpu.held.map Prod.fst).Nodup

/-- What a turn does to what is held. -/
inductive Turn.Effect (t : Turn) : Prop where
  /-- Nothing is taken, and nothing that is held is left. -/
  | keeps (cpu : t.after.cpu = t.before.cpu) (guards : t.after.guards = t.before.guards)
      (takes : t.takes? = none) (leaves : ∀ h, t.leaves? = some h → t.before.saved? h = none)
  /-- A free lock is taken. -/
  | locks (n : String) (free : t.before.cpu.savedBy n = none)
      (cpu : t.after.cpu = t.before.cpu.acquire n) (guards : t.after.guards = t.before.guards)
      (takes : t.takes? = some (.lock n)) (leaves : t.leaves? = none)
  /-- A lock goes without a release. -/
  | forgets (n : String) (cpu : t.after.cpu = t.before.cpu.forget n)
      (guards : t.after.guards = t.before.guards) (takes : t.takes? = none)
      (leaves : t.leaves? = some (.lock n)) (releases : t.releases? = none)
  /-- A held lock is released. -/
  | unlocks (n : String) (w : Word) (saved : t.before.cpu.savedBy n = some w)
      (cpu : t.after.cpu = (t.before.cpu.forget n).restore w)
      (guards : t.after.guards = t.before.guards) (takes : t.takes? = none)
      (leaves : t.leaves? = some (.lock n)) (releases : t.releases? = some (.lock n))
  /-- A new guard is made, and one of its name is dropped after that. -/
  | guards (n : String)
      (cpu : t.after.cpu = ((t.before.guards.find? n).map t.before.cpu.disable.dropGuard).getD
        t.before.cpu.disable)
      (guards : t.after.guards = t.before.guards.put n ⟨t.before.cpu.word⟩)
      (takes : t.takes? = some (.guard n)) (leaves : t.leaves? = some (.guard n))
      (releases : t.releases? = some (.guard n))
  /-- A guard is dropped. -/
  | drops (n : String) (g : Guard) (saved : t.before.guards.find? n = some g)
      (cpu : t.after.cpu = t.before.cpu.dropGuard g)
      (guards : t.after.guards = t.before.guards.remove n) (takes : t.takes? = none)
      (leaves : t.leaves? = some (.guard n)) (releases : t.releases? = some (.guard n))

namespace Locker

variable {l : Locker}

theorem Tidy.savedBy_eq_none (hl : l.Tidy) {n : String} (hn : l.values.find? n = none) :
    l.cpu.savedBy n = none :=
  Classical.not_not.mp fun h => hl.exists_of_held n h hn

theorem isLocked_eq_false_iff {cpu : Cpu String} {n : String} :
    cpu.isLocked n = false ↔ cpu.savedBy n = none := by
  simp [Cpu.isLocked]

theorem step_lock {n : String} {old : Int64} (hn : l.values.find? n = some old) (op : LockOp) :
    l.step (.lock n op) = l.onMade n old op := by
  simp only [step, onLock, hn]

theorem step_noLock {n : String} (hn : l.values.find? n = none) {op : LockOp}
    (hop : ∀ value, op ≠ .make value) : l.step (.lock n op) = (.noLock, l) := by
  cases op <;> simp_all [step, onLock]

theorem onMade_lock (l : Locker) (n : String) (old : Int64) :
    l.onMade n old .lock =
      if l.cpu.isLocked n then (.wouldDeadlock, l)
      else (.done, l.disabled (l.cpu.acquire n)) := by
  cases h : l.cpu.isLocked n <;> simp [onMade, Cpu.lock?, h]

theorem onMade_tryLock (l : Locker) (n : String) (old : Int64) :
    l.onMade n old .tryLock =
      if l.cpu.isLocked n then (.flag false, l.disabled l.cpu)
      else (.flag true, l.disabled (l.cpu.acquire n)) := by
  cases h : l.cpu.isLocked n <;> simp [onMade, Cpu.tryLock, h, Cpu.disable, Cpu.restore]

theorem onMade_add (l : Locker) (n : String) (old value : Int64) :
    l.onMade n old (.add value) =
      if l.cpu.isLocked n then (.wouldDeadlock, l)
      else (l.disabled l.cpu).store n (old + value) := by
  cases h : l.cpu.isLocked n <;> simp [onMade, Cpu.lock?, h, Cpu.release_acquire]

theorem onMade_tryAdd (l : Locker) (n : String) (old value : Int64) :
    l.onMade n old (.tryAdd value) =
      if l.cpu.isLocked n then (.nothing, l.disabled l.cpu)
      else (l.disabled l.cpu).store n (old + value) := by
  cases h : l.cpu.isLocked n <;>
    simp [onMade, Cpu.tryLock, h, Cpu.release_acquire, Cpu.disable, Cpu.restore]

theorem onMade_unlock (l : Locker) (n : String) (old : Int64) :
    l.onMade n old .unlock =
      match l.cpu.savedBy n with
      | some w => (.done, { l with cpu := (l.cpu.forget n).restore w })
      | none => (.notLocked, l) := by
  cases h : l.cpu.savedBy n <;> simp [onMade, Cpu.unlock?, h]

/-- An operation on a lock that exists does one of these things. -/
theorem effect_onMade {n : String} {old : Int64} (hn : l.values.find? n = some old)
    (op : LockOp) : (l.turn (.lock n op)).Effect := by
  have hstep := step_lock hn op
  cases op with
  | make value | intoInner =>
    refine .forgets n ?_ ?_ ?_ ?_ ?_ <;>
      simp [turn, hstep, onMade, Turn.takes?, Turn.leaves?, Turn.releases?]
  | lock | tryLock =>
    simp only [onMade_lock, onMade_tryLock] at hstep
    cases hl : l.cpu.isLocked n with
    | true =>
      refine .keeps ?_ ?_ ?_ ?_ <;>
        simp [turn, hstep, hl, disabled, Turn.takes?, Turn.leaves?, Turn.releases?]
    | false =>
      refine .locks n (isLocked_eq_false_iff.mp hl) ?_ ?_ ?_ ?_ <;>
        simp [turn, hstep, hl, disabled, Turn.takes?, Turn.leaves?, Turn.releases?]
  | unlock =>
    rw [onMade_unlock] at hstep
    cases hs : l.cpu.savedBy n with
    | none =>
      refine .keeps ?_ ?_ ?_ ?_ <;>
        simp [turn, hstep, hs, saved?, Turn.takes?, Turn.leaves?, Turn.releases?]
    | some w =>
      refine .unlocks n w hs ?_ ?_ ?_ ?_ ?_ <;>
        simp [turn, hstep, hs, Turn.takes?, Turn.leaves?, Turn.releases?]
  | add value | tryAdd value =>
    simp only [onMade_add, onMade_tryAdd] at hstep
    refine .keeps ?_ ?_ ?_ ?_ <;> cases hl : l.cpu.isLocked n <;>
      simp [turn, hstep, hl, store, disabled, Turn.takes?, Turn.leaves?, Turn.releases?]
  | isLocked | addExclusive value =>
    refine .keeps ?_ ?_ ?_ ?_ <;>
      simp [turn, hstep, onMade, store, Turn.takes?, Turn.leaves?, Turn.releases?]

/-- **What an operation does** to what is held. -/
theorem Tidy.effect (hl : l.Tidy) (s : LockerStep) : (l.turn s).Effect := by
  cases s with
  | lock n op =>
    cases hn : l.values.find? n with
    | some old => exact effect_onMade hn op
    | none =>
      have hfree := hl.savedBy_eq_none hn
      cases op with
      | make value =>
        refine .keeps ?_ ?_ ?_ ?_ <;>
          simp [turn, step, onLock, hn, hfree, saved?, Turn.takes?, Turn.leaves?]
      | _ =>
        refine .keeps ?_ ?_ ?_ ?_ <;>
          simp [turn, step, onLock, hn, hfree, saved?, Turn.takes?, Turn.leaves?, Turn.releases?]
  | guard n op =>
    cases op with
    | make =>
      refine .guards n ?_ ?_ ?_ ?_ ?_ <;>
        cases hg : l.guards.find? n <;>
        simp [turn, step, onGuard, hg, disabled, Cpu.guarded, Turn.takes?, Turn.leaves?,
          Turn.releases?]
    | wasEnabled =>
      refine .keeps ?_ ?_ ?_ ?_ <;>
        cases hg : l.guards.find? n <;>
        simp [turn, step, onGuard, hg, Turn.takes?, Turn.leaves?, Turn.releases?]
    | drop =>
      cases hg : l.guards.find? n with
      | none =>
        refine .keeps ?_ ?_ ?_ ?_ <;>
          simp [turn, step, onGuard, hg, saved?, Turn.takes?, Turn.leaves?, Turn.releases?]
      | some g =>
        refine .drops n g hg ?_ ?_ ?_ ?_ ?_ <;>
          simp [turn, step, onGuard, hg, Turn.takes?, Turn.leaves?, Turn.releases?]

end Locker

namespace Turn.Effect

variable {t : Turn}

/-- What is held after a turn: what it takes saves the word found, what it leaves saves nothing,
and everything else that is held stays as it is. -/
theorem saved? (ht : t.Effect) (hl : t.before.Tidy) (h : Holder) :
    t.after.saved? h =
      if t.takes? = some h then some t.before.cpu.word
      else if t.leaves? = some h then none else t.before.saved? h := by
  cases ht with
  | keeps cpu guards takes leaves =>
    have hsame : t.after.saved? h = t.before.saved? h := by
      cases h <;> simp [Locker.saved?, cpu, guards]
    rw [hsame, takes, if_neg (by simp)]
    split
    · exact leaves h ‹_›
    · rfl
  | locks n free cpu guards takes leaves =>
    cases h <;> simp [Locker.saved?, cpu, guards, takes, leaves, Cpu.savedBy_acquire, eq_comm]
  | forgets n cpu guards takes leaves releases =>
    cases h <;>
      simp [Locker.saved?, cpu, guards, takes, leaves, Cpu.savedBy_forget hl.once, eq_comm]
  | unlocks n w saved cpu guards takes leaves releases =>
    cases h <;>
      simp [Locker.saved?, cpu, guards, takes, leaves, Cpu.savedBy_forget hl.once, eq_comm]
  | guards n cpu guards takes leaves releases =>
    cases h with
    | lock m =>
      have hsaved : t.after.cpu.savedBy m = t.before.cpu.savedBy m := by
        rw [cpu]; cases t.before.guards.find? n <;> rfl
      simp [Locker.saved?, hsaved, takes, leaves]
    | guard m =>
      rw [Locker.saved?, guards, Names.find?_put]
      by_cases hm : n = m
      · simp [takes, hm]
      · simp [Locker.saved?, takes, leaves, hm, Ne.symm hm]
  | drops n g saved cpu guards takes leaves releases =>
    cases h with
    | lock m => simp [Locker.saved?, cpu, Cpu.dropGuard, takes, leaves]
    | guard m =>
      rw [Locker.saved?, guards, Names.find?_remove]
      by_cases hm : n = m
      · simp [takes, leaves, hm]
      · simp [Locker.saved?, takes, leaves, hm, Ne.symm hm]

theorem enableMask (ht : t.Effect) : t.after.cpu.enableMask = t.before.cpu.enableMask := by
  cases ht with
  | guards n cpu => rw [cpu]; cases t.before.guards.find? n <;> rfl
  | _ => simp_all [Cpu.acquire, Cpu.disable, Cpu.forget, Cpu.restore, Cpu.dropGuard]

/-- A release puts the saved word back. -/
theorem word_of_releases (ht : t.Effect) {h : Holder} {w : Word} (hr : t.releases? = some h)
    (hs : t.before.saved? h = some w) : t.after.cpu.word = w := by
  have hleaves := leaves?_of_releases? hr
  cases ht with
  | keeps cpu guards takes leaves => simp [leaves h hleaves] at hs
  | locks n free cpu guards takes leaves => simp [leaves] at hleaves
  | forgets n cpu guards takes leaves releases => simp [releases] at hr
  | unlocks n w' saved cpu guards takes leaves releases =>
    obtain rfl : Holder.lock n = h := by simpa [releases] using hr
    obtain rfl : w' = w := by simpa [Locker.saved?, saved] using hs
    rw [cpu, Cpu.restore]
  | guards n cpu guards takes leaves releases =>
    obtain rfl : Holder.guard n = h := by simpa [releases] using hr
    obtain ⟨g, hg, rfl⟩ := Option.map_eq_some_iff.mp hs
    rw [cpu, hg]
    rfl
  | drops n g saved cpu guards takes leaves releases =>
    obtain rfl : Holder.guard n = h := by simpa [releases] using hr
    obtain rfl : g.saved = w := by simpa [Locker.saved?, saved] using hs
    rw [cpu, Cpu.dropGuard, Cpu.restore]

/-- If nothing that is held is left, the word has the enable bits cleared if something is taken,
and stays as it is if not. -/
theorem word_of_not_leaves (ht : t.Effect)
    (hl : ∀ h, t.leaves? = some h → t.before.saved? h = none) :
    t.after.cpu.word =
      if t.takes?.isSome then t.before.cpu.word &&& ~~~t.before.cpu.enableMask
      else t.before.cpu.word := by
  cases ht with
  | keeps cpu guards takes leaves => simp [takes, cpu]
  | locks n free cpu guards takes leaves => simp [takes, cpu, Cpu.acquire, Cpu.disable]
  | forgets n cpu guards takes leaves releases => simp [takes, cpu]
  | unlocks n w saved cpu guards takes leaves releases =>
    simpa [Locker.saved?, saved] using hl _ leaves
  | guards n cpu guards takes leaves releases =>
    have hn : t.before.guards.find? n = none := by
      simpa [Locker.saved?] using hl _ leaves
    simp [takes, cpu, hn, Cpu.disable]
  | drops n g saved cpu guards takes leaves releases =>
    simpa [Locker.saved?, saved] using hl _ leaves

/-- What is taken was free, or is left by the same turn. -/
theorem free_of_takes (ht : t.Effect) {h : Holder} (hh : t.takes? = some h)
    (hl : t.leaves? ≠ some h) : t.before.saved? h = none := by
  cases ht with
  | locks n free cpu guards takes leaves =>
    obtain rfl : Holder.lock n = h := by simpa [takes] using hh
    exact free
  | guards n cpu guards takes leaves releases => exact absurd (leaves.trans (takes ▸ hh)) hl
  | _ => simp_all

end Turn.Effect

namespace Locker

variable {l : Locker} {s : LockerStep}

theorem values_of_takes {n : String} (ht : (l.turn s).takes? = some (.lock n)) :
    (l.turn s).after.values.find? n ≠ none := by
  cases s with
  | guard m op => cases op <;> simp [turn, Turn.takes?] at ht
  | lock m op =>
    cases hm : l.values.find? m with
    | none => cases op <;> simp [turn, step, onLock, hm, Turn.takes?] at ht
    | some old =>
      have hstep := step_lock hm op
      cases op with
      | lock | tryLock =>
        simp only [onMade_lock, onMade_tryLock] at hstep
        cases hl : l.cpu.isLocked m <;>
          simp_all [turn, disabled, Turn.takes?]
      | _ => simp [turn, Turn.takes?] at ht

/-- A lock that is made exists. -/
theorem values_of_make (l : Locker) (n : String) (value : Int64) :
    (l.turn (.lock n (.make value))).after.values.find? n ≠ none := by
  cases hn : l.values.find? n <;> simp [turn, step, onLock, onMade, hn, Names.find?_put]

/-- A lock exists until it is given up. -/
theorem values_of_step {n : String} (hs : s ≠ .lock n .intoInner)
    (hn : l.values.find? n ≠ none) : (l.turn s).after.values.find? n ≠ none := by
  have hput : ∀ m value, (l.values.put m value).find? n ≠ none := fun m value => by
    rw [Names.find?_put]
    split <;> simp_all
  cases s with
  | guard m op =>
    cases op <;> cases hg : l.guards.find? m <;> simpa [turn, step, onGuard, hg, disabled]
  | lock m op =>
    cases hm : l.values.find? m with
    | none =>
      cases op with
      | make value => simpa [turn, step, onLock, hm] using hput m value
      | _ => simpa [turn, step, onLock, hm]
    | some old =>
      have hstep := step_lock hm op
      cases op with
      | make value => simpa [turn, hstep, onMade] using hput m value
      | lock | tryLock =>
        simp only [onMade_lock, onMade_tryLock] at hstep
        cases hlock : l.cpu.isLocked m <;> simpa [turn, hstep, hlock, disabled]
      | unlock =>
        rw [onMade_unlock] at hstep
        cases hs : l.cpu.savedBy m <;> simpa [turn, hstep, hs]
      | add value | tryAdd value =>
        simp only [onMade_add, onMade_tryAdd] at hstep
        cases hlock : l.cpu.isLocked m <;> simp_all [turn, store, disabled]
      | isLocked => simpa [turn, hstep, onMade]
      | addExclusive value => simpa [turn, hstep, onMade, store] using hput m (old + value)
      | intoInner =>
        have hne : n ≠ m := fun e => hs (by rw [e])
        simpa [turn, hstep, onMade, Names.find?_remove, hne]

theorem nodup_acquire {cpu : Cpu String} {n : String} (hfree : cpu.savedBy n = none)
    (hc : (cpu.held.map Prod.fst).Nodup) : ((cpu.acquire n).held.map Prod.fst).Nodup := by
  refine List.nodup_cons.mpr ⟨fun hn => ?_, hc⟩
  obtain ⟨p, hp, rfl⟩ := List.mem_map.mp hn
  simpa using List.lookup_eq_none_iff.mp hfree p hp

theorem Tidy.step (hl : l.Tidy) (s : LockerStep) : (l.turn s).after.Tidy := by
  have heffect := hl.effect s
  refine ⟨fun n hn => ?_, ?_⟩
  · have hsaved := heffect.saved? hl (.lock n)
    by_cases ht : (l.turn s).takes? = some (.lock n)
    · exact values_of_takes ht
    · rw [if_neg ht] at hsaved
      by_cases hleaves : (l.turn s).leaves? = some (.lock n)
      · rw [if_pos hleaves] at hsaved
        exact absurd hsaved hn
      · rw [if_neg hleaves] at hsaved
        have hs : s ≠ .lock n .intoInner := fun e => hleaves (by simp [e, turn, Turn.leaves?])
        exact values_of_step hs (hl.exists_of_held n fun e => hn (hsaved.trans e))
  · have hforget : ∀ n, ((l.cpu.forget n).held.map Prod.fst).Nodup := fun n =>
      hl.once.sublist ((List.eraseP_sublist).map _)
    cases heffect with
    | keeps cpu => rw [cpu]; exact hl.once
    | locks n free cpu => rw [cpu]; exact nodup_acquire free hl.once
    | forgets n cpu => rw [cpu]; exact hforget n
    | unlocks n w saved cpu => rw [cpu]; exact hforget n
    | guards n cpu =>
      rw [cpu]
      cases (l.turn s).before.guards.find? n <;> exact hl.once
    | drops n g saved cpu => rw [cpu]; exact hl.once

end Locker

end VirtualFs.Sync
