import VirtualFs.Proofs.Since
import VirtualFs.Proofs.Sync.Turns

/-!
# What is held, and the word that comes back

From the turns of a run alone one reads what is held: a lock or guard has been taken by a turn and
has not been left since (`Taken`, `Holds`).  The processor keeps no such history.  Each lock and
guard keeps one word, and `Locker.Remembers` says that this is the word from just before the
acquisition that is in force.

* `Locker.turns_account`: of every turn of every run, whatever the order of the releases, the
  answers say what is held, a failed attempt leaves the processor as it was, and a release puts
  back the word from just before the acquisition that it ends (`Turn.Accounts`).  If what is held
  is given back in the reverse order (`Nested`), the enable bits are clear while anything is held
  and the word is the initial one while nothing is.
-/

namespace VirtualFs.Sync

/-- `turn` took `h`, and no turn since has left it. -/
def Taken (past : List Turn) (h : Holder) (turn : Turn) : Prop :=
  Since (·.takes? = some h) (·.leaves? = some h) past turn

/-- `h` is held after these turns. -/
def Holds (past : List Turn) (h : Holder) : Prop :=
  ∃ turn, Taken past h turn

/-- A lock has been made under the name, and has not been given up since. -/
def Made (past : List Turn) (name : String) : Prop :=
  ∃ turn, Since (∃ value, ·.step = .lock name (.make value)) (·.step = .lock name .intoInner)
    past turn

/-- Releases come in the reverse order of acquisition: a turn that leaves what is held only
releases it, and nothing that was taken later is still held. -/
def Nested (turns : List Turn) : Prop :=
  ∀ a x b y c h, turns = a ++ x :: (b ++ y :: c) → x.takes? = some h →
    (∀ z ∈ b, z.leaves? ≠ some h) → y.leaves? = some h →
      y.releases? = some h ∧ y.takes? = none ∧ ∀ h', ¬ Holds b h'

/-- What is true of a turn after these ones, in a run that started with the word `word`. -/
structure Turn.Accounts (word enableMask : Word) (past : List Turn) (now : Turn) : Prop where
  /-- A lock reports that it is held exactly while it is. -/
  reports : ∀ n, now.step = .lock n .isLocked → Made past n →
    ∃ b, now.answer = .flag b ∧ (b = true ↔ Holds past (.lock n))
  /-- A lock is taken by waiting exactly if it is free; else the wait is for ever. -/
  waits : ∀ n, now.step = .lock n .lock → Made past n →
    (Holds past (.lock n) → now.answer = .wouldDeadlock ∧ now.after = now.before) ∧
    (¬ Holds past (.lock n) → now.answer = .done)
  /-- An attempt succeeds exactly if the lock is free. -/
  attempts : ∀ n, now.step = .lock n .tryLock → Made past n →
    ∃ b, now.answer = .flag b ∧ (b = true ↔ ¬ Holds past (.lock n))
  /-- A failed attempt turns interrupts off once, and leaves everything else as it was: the
  word, and what every holder will restore. -/
  fails : ∀ n, now.step = .lock n .tryLock → now.answer = .flag false →
    now.after = { now.before with disables := now.before.disables + 1 }
  /-- A lock that is taken and released in one operation leaves the processor as it was. -/
  passes : ∀ n value, now.step = .lock n (.add value) ∨ now.step = .lock n (.tryAdd value) →
    now.after.cpu = now.before.cpu
  /-- A lock can be released exactly while it is held. -/
  unlocks : ∀ n, now.step = .lock n .unlock → (now.answer = .done ↔ Holds past (.lock n))
  /-- A guard can be dropped exactly while it is held. -/
  drops : ∀ n, now.step = .guard n .drop → (now.answer = .flag true ↔ Holds past (.guard n))
  /-- A release puts the word back to what it was just before the acquisition. -/
  restores : ∀ h x, now.releases? = some h → Taken past h x →
    now.after.cpu.word = x.before.cpu.word
  /-- The locks that are held after the turn are the ones taken and not left. -/
  locked : ∀ n, now.after.cpu.isLocked n = true ↔ Holds (past ++ [now]) (.lock n)
  /-- With releases in reverse order, interrupts are off while anything is held. -/
  masked : Nested (past ++ [now]) → (∃ h, Holds (past ++ [now]) h) →
    now.after.cpu.word &&& enableMask = 0
  /-- With releases in reverse order, the word is the initial one while nothing is held. -/
  whole : Nested (past ++ [now]) → (¬ ∃ h, Holds (past ++ [now]) h) →
    now.after.cpu.word = word

theorem taken_concat {past : List Turn} {now x : Turn} {h : Holder} :
    Taken (past ++ [now]) h x ↔
      (x = now ∧ now.takes? = some h) ∨ (Taken past h x ∧ now.leaves? ≠ some h) :=
  since_concat

/-! ### What the state remembers -/

namespace Locker

variable {l : Locker} {mask : Word} {past : List Turn} {s : LockerStep}

/-- What the state after these turns keeps of them: the locks that were made, and for what is held,
and for nothing else, the word from just before it was taken. -/
structure Remembers (mask : Word) (past : List Turn) (l : Locker) : Prop where
  tidy : l.Tidy
  enableMask : l.cpu.enableMask = mask
  made : ∀ n, Made past n → l.values.find? n ≠ none
  saved : ∀ h w, l.saved? h = some w ↔ ∃ x, Taken past h x ∧ x.before.cpu.word = w

theorem Remembers.start (word mask : Word) : Remembers mask [] (start word mask) where
  tidy := ⟨fun n hn => absurd rfl hn, List.nodup_nil⟩
  enableMask := rfl
  made n := fun ⟨x, hx⟩ => absurd hx not_since_nil
  saved h w := by
    constructor
    · cases h <;> simp [saved?, Locker.start, Cpu.savedBy, Names.find?]
    · rintro ⟨x, hx, -⟩
      exact absurd hx not_since_nil

theorem Remembers.holds_iff (r : Remembers mask past l) {h : Holder} :
    Holds past h ↔ l.saved? h ≠ none := by
  constructor
  · rintro ⟨x, hx⟩
    simp [(r.saved h _).mpr ⟨x, hx, rfl⟩]
  · intro hs
    obtain ⟨w, hw⟩ := Option.ne_none_iff_exists'.mp hs
    obtain ⟨x, hx, -⟩ := (r.saved h w).mp hw
    exact ⟨x, hx⟩

theorem Remembers.isLocked_iff (r : Remembers mask past l) {n : String} :
    l.cpu.isLocked n = true ↔ Holds past (.lock n) := by
  rw [r.holds_iff, saved?, Cpu.isLocked, Option.isSome_iff_ne_none]

theorem Remembers.step (r : Remembers mask past l) (s : LockerStep) :
    Remembers mask (past ++ [l.turn s]) (l.turn s).after where
  tidy := r.tidy.step s
  enableMask := (r.tidy.effect s).enableMask.trans r.enableMask
  made n := by
    rintro ⟨x, hx⟩
    obtain ⟨-, value, hs⟩ | ⟨hx, hs⟩ := since_concat.mp hx
    · obtain rfl : s = _ := hs
      exact values_of_make l n value
    · exact values_of_step hs (r.made n ⟨x, hx⟩)
  saved h w := by
    rw [(r.tidy.effect s).saved? r.tidy h]
    simp only [taken_concat]
    have hkept : ((l.turn s).leaves? ≠ some h ∧ l.saved? h = some w) ↔
        ∃ x, (Taken past h x ∧ (l.turn s).leaves? ≠ some h) ∧ x.before.cpu.word = w := by
      rw [r.saved h w]
      exact ⟨fun ⟨hl, x, hx, hw⟩ => ⟨x, ⟨hx, hl⟩, hw⟩,
        fun ⟨x, ⟨hx, hl⟩, hw⟩ => ⟨hl, x, hx, hw⟩⟩
    by_cases ht : (l.turn s).takes? = some h
    · have hfree : ¬ ((l.turn s).leaves? ≠ some h ∧ l.saved? h = some w) :=
        fun ⟨hl, hw⟩ => by simpa [hw] using (r.tidy.effect s).free_of_takes ht hl
      rw [if_pos ht]
      constructor
      · rintro hw
        exact ⟨_, .inl ⟨rfl, ht⟩, Option.some.inj hw⟩
      · rintro ⟨x, ⟨rfl, -⟩ | hx, hw⟩
        · exact congrArg some hw
        · exact absurd (hkept.mpr ⟨x, hx, hw⟩) hfree
    · rw [if_neg ht]
      by_cases hl : (l.turn s).leaves? = some h
      · simp [ht, hl]
      · simpa [ht, hl] using r.saved h w

theorem Remembers.not_holds_of_takes (r : Remembers mask past l) {h : Holder}
    (ht : (l.turn s).takes? = some h) (hl : (l.turn s).leaves? ≠ some h) : ¬ Holds past h := by
  rw [r.holds_iff]
  exact fun hs => hs ((r.tidy.effect s).free_of_takes ht hl)

end Locker

/-! ### Releases in reverse order -/

section Nested

variable {a b past : List Turn} {x y : Turn} {h h' : Holder}

theorem Nested.of_append (hn : Nested (a ++ b)) : Nested a :=
  fun a' x b' y c h heq => hn a' x b' y (c ++ b) h (by simp [heq])

/-- The first of these turns to leave `h`, if any does. -/
theorem exists_first_leaves (hb : ∃ z ∈ b, z.leaves? = some h) :
    ∃ c z d, b = c ++ z :: d ∧ z.leaves? = some h ∧ ∀ w ∈ c, w.leaves? ≠ some h := by
  have hsome : (b.find? fun z => decide (z.leaves? = some h)).isSome := by
    simpa [List.find?_isSome] using hb
  obtain ⟨z, hz⟩ := Option.isSome_iff_exists.mp hsome
  obtain ⟨hleaves, c, d, rfl, hc⟩ := List.find?_eq_some_iff_append.mp hz
  exact ⟨c, z, d, rfl, by simpa using hleaves, fun w hw => by simpa using hc w hw⟩

/-- While `h` is held, what was held before it was taken is not left, from the turn on that takes
`h`. -/
theorem Nested.not_leaves (hn : Nested (a ++ x :: b)) (hx : x.takes? = some h)
    (hb : ∀ z ∈ b, z.leaves? ≠ some h) (ha : Holds a h') :
    ∀ z ∈ x :: b, z.leaves? ≠ some h' := by
  intro z₀ hz₀ hleaves₀
  obtain ⟨c, z, d, heq, hz, hc⟩ := exists_first_leaves ⟨z₀, hz₀, hleaves₀⟩
  obtain ⟨y, a₁, a₂, rfl, hy, ha₂⟩ := ha
  obtain ⟨-, hplain, hlast⟩ := hn a₁ y (a₂ ++ c) z d h' (by simp [heq]) hy
    (fun w hw => (List.mem_append.mp hw).elim (ha₂ w) (hc w)) hz
  cases c with
  | nil =>
    -- the turn that takes `h` leaves nothing that is held
    obtain ⟨rfl, -⟩ := List.cons.inj heq
    simp [hplain] at hx
  | cons w c =>
    -- `h` was taken later and is still held
    obtain ⟨rfl, rfl⟩ := List.cons.inj heq
    exact hlast h ⟨x, a₂, c, rfl, hx, fun w hw => hb w (by simp [hw])⟩

/-- A release undoes the acquisition: what is held after it is what was held before that. -/
theorem Nested.holds_iff (hn : Nested (a ++ x :: b ++ [y])) (hx : x.takes? = some h)
    (hb : ∀ z ∈ b, z.leaves? ≠ some h) (hy : y.leaves? = some h) (hfree : ¬ Holds a h) :
    Holds (a ++ x :: b ++ [y]) h' ↔ Holds a h' := by
  obtain ⟨-, hplain, hlast⟩ := hn a x b y [] h (by simp) hx hb hy
  constructor
  · rintro ⟨z, hz⟩
    obtain ⟨-, ht⟩ | ⟨hz, hleaves⟩ := taken_concat.mp hz
    · simp [hplain] at ht
    · obtain hz | ⟨hz, -⟩ := since_append.mp hz
      · obtain hz | ⟨hz, -⟩ := (since_append (a := [x])).mp hz
        · exact absurd ⟨z, hz⟩ (hlast h')
        · obtain ⟨rfl, hz⟩ := since_singleton.mp hz
          rw [hx] at hz
          exact absurd (hy.trans hz) hleaves
      · exact ⟨z, hz⟩
  · intro ha
    have hne : h' ≠ h := fun e => hfree (e ▸ ha)
    have hkept := hn.of_append.not_leaves hx hb ha
    obtain ⟨z, hz⟩ := ha
    refine ⟨z, taken_concat.mpr (.inr ⟨since_append.mpr (.inr ⟨hz, hkept⟩), ?_⟩)⟩
    rw [hy]
    exact fun e => hne (Option.some.inj e).symm

end Nested

/-! ### Every turn of a run -/

namespace Locker

variable {l : Locker} {word mask : Word} {past a b : List Turn} {x : Turn} {s : LockerStep}
  {h : Holder}

/-- The word after these turns: with the enable bits clear while something is held, and the initial
one while nothing is. -/
structure Settled (word mask : Word) (past : List Turn) (l : Locker) : Prop where
  masked : (∃ h, Holds past h) → l.cpu.word &&& mask = 0
  whole : (¬ ∃ h, Holds past h) → l.cpu.word = word

/-- The state after these turns, which each lead from the one before. -/
structure Follows (word mask : Word) (past : List Turn) (l : Locker) : Prop where
  remembers : Remembers mask past l
  settled : Nested past → Settled word mask past l

/-- What a run keeps: `Follows` of its state, and of the states before each of its turns. -/
structure Reached (word mask : Word) (past : List Turn) (l : Locker) : Prop
    extends Follows word mask past l where
  earlier : ∀ a x b, past = a ++ x :: b →
    Follows word mask a x.before ∧ x = x.before.turn x.step

theorem Reached.start (word mask : Word) : Reached word mask [] (start word mask) where
  remembers := .start word mask
  settled _ := ⟨fun ⟨h, x, hx⟩ => absurd hx not_since_nil, fun _ => rfl⟩
  earlier a x b heq := by simp at heq

/-- With releases in reverse order, nothing is taken while it is held. -/
theorem Reached.free (r : Reached word mask past l) (hn : Nested past)
    (heq : past = a ++ x :: b) (hx : x.takes? = some h) : ¬ Holds a h := by
  obtain ⟨hfollows, hturn⟩ := r.earlier a x b heq
  by_cases hleaves : x.leaves? = some h
  · rintro ⟨z, c, d, rfl, hz, hd⟩
    have hplain := (hn c z d x b h (by simp [heq]) hz hd hleaves).2.1
    simp [hplain] at hx
  · rw [hturn] at hx hleaves
    exact hfollows.remembers.not_holds_of_takes hx hleaves

/-- A turn that leaves nothing held: interrupts go off if it takes something, and nothing happens
if it does not. -/
theorem Settled.of_not_leaves (hs : Settled word mask past l) (r : Remembers mask past l)
    (hl : ∀ h, (l.turn s).leaves? = some h → ¬ Holds past h) :
    Settled word mask (past ++ [l.turn s]) (l.turn s).after := by
  have hword := (r.tidy.effect s).word_of_not_leaves fun h hh => by
    simpa [r.holds_iff] using hl h hh
  cases ht : (l.turn s).takes? with
  | some h =>
    have hheld : Holds (past ++ [l.turn s]) h := ⟨_, taken_concat.mpr (.inl ⟨rfl, ht⟩)⟩
    refine ⟨fun _ => ?_, fun hnone => absurd ⟨h, hheld⟩ hnone⟩
    rw [hword, ht, turn_before, r.enableMask]
    simp [UInt64.and_assoc]
  | none =>
    have hsame : ∀ h, Holds (past ++ [l.turn s]) h ↔ Holds past h := fun h =>
      exists_congr fun x => by
        simp only [taken_concat, ht, reduceCtorEq, and_false, false_or]
        exact and_iff_left_of_imp fun hx hh => hl h hh ⟨x, hx⟩
    have hword' : (l.turn s).after.cpu.word = l.cpu.word := by simpa [ht] using hword
    refine ⟨fun hh => ?_, fun hh => ?_⟩ <;> rw [exists_congr hsame] at hh
    · rw [hword', hs.masked hh]
    · rw [hword', hs.whole hh]

/-- A release in reverse order: everything is as it was just before the acquisition. -/
theorem Reached.settled_of_release (r : Reached word mask past l)
    (hn : Nested (past ++ [l.turn s])) (hl : (l.turn s).leaves? = some h)
    (hh : Holds past h) : Settled word mask (past ++ [l.turn s]) (l.turn s).after := by
  obtain ⟨x, htaken⟩ := hh
  obtain ⟨a, b, rfl, hx, hb⟩ := id htaken
  have hbefore := (r.earlier a x b rfl).1.settled hn.of_append.of_append
  have hrelease := (hn a x b _ [] h (by simp) hx hb hl).1
  have hword := (r.remembers.tidy.effect s).word_of_releases hrelease
    ((r.remembers.saved h _).mpr ⟨x, htaken, rfl⟩)
  have hsame : ∀ h', Holds (a ++ x :: b ++ [l.turn s]) h' ↔ Holds a h' := fun h' =>
    hn.holds_iff hx hb hl (r.free hn.of_append rfl hx)
  refine ⟨fun hh => ?_, fun hh => ?_⟩ <;> rw [exists_congr hsame] at hh
  · rw [hword, hbefore.masked hh]
  · rw [hword, hbefore.whole hh]

theorem Reached.step (r : Reached word mask past l) (s : LockerStep) :
    Reached word mask (past ++ [l.turn s]) (l.turn s).after where
  remembers := r.remembers.step s
  settled hn := by
    by_cases hl : ∃ h, (l.turn s).leaves? = some h ∧ Holds past h
    · obtain ⟨h, hl, hh⟩ := hl
      exact r.settled_of_release hn hl hh
    · exact (r.settled hn.of_append).of_not_leaves r.remembers fun h hleaves hh =>
        hl ⟨h, hleaves, hh⟩
  earlier a x b heq := by
    rcases concat_eq_append_cons heq with ⟨rfl, rfl, -⟩ | ⟨b', rfl, -⟩
    · exact ⟨r.toFollows, rfl⟩
    · exact r.earlier a x b' rfl

/-- Every turn of a run is taken in a state that is reached by the turns before it. -/
theorem Reached.turns (r : Reached word mask past l) {steps : List LockerStep}
    {before after : List Turn} {now : Turn} (heq : l.turns steps = before ++ now :: after) :
    Reached word mask (past ++ before) now.before ∧ now = now.before.turn now.step := by
  induction steps generalizing past l before with
  | nil => simp [Locker.turns] at heq
  | cons s rest ih =>
    obtain ⟨rfl, heq'⟩ | ⟨before', rfl, heq'⟩ := List.cons_eq_append_iff.mp heq
    · obtain ⟨rfl, -⟩ := List.cons.inj heq'
      exact ⟨by simpa using r, rfl⟩
    · simpa using ih (r.step s) heq'

theorem Reached.accounts (r : Reached word mask past l) (s : LockerStep) :
    (l.turn s).Accounts word mask past where
  reports n hs hm := by
    obtain rfl : s = _ := hs
    obtain ⟨old, hn⟩ := Option.ne_none_iff_exists'.mp (r.remembers.made n hm)
    refine ⟨l.cpu.isLocked n, ?_, r.remembers.isLocked_iff⟩
    rw [turn, step_lock hn, onMade]
  waits n hs hm := by
    obtain rfl : s = _ := hs
    obtain ⟨old, hn⟩ := Option.ne_none_iff_exists'.mp (r.remembers.made n hm)
    rw [turn, step_lock hn, onMade_lock, ← r.remembers.isLocked_iff]
    cases l.cpu.isLocked n <;> simp
  attempts n hs hm := by
    obtain rfl : s = _ := hs
    obtain ⟨old, hn⟩ := Option.ne_none_iff_exists'.mp (r.remembers.made n hm)
    refine ⟨!l.cpu.isLocked n, ?_, ?_⟩
    · rw [turn, step_lock hn, onMade_tryLock]
      cases l.cpu.isLocked n <;> simp
    · rw [← r.remembers.isLocked_iff]
      simp
  fails n hs ha := by
    obtain rfl : s = _ := hs
    cases hn : l.values.find? n with
    | none => simp [turn, step_noLock hn] at ha
    | some old =>
      rw [turn, step_lock hn, onMade_tryLock] at ha ⊢
      cases hl : l.cpu.isLocked n <;> simp_all [disabled]
  passes n value hs := by
    rcases hs with hs | hs <;> obtain rfl : s = _ := hs <;>
      cases hn : l.values.find? n with
      | none => rw [turn, step_noLock hn (by simp)]
      | some old =>
        simp only [turn, step_lock hn, onMade_add, onMade_tryAdd]
        cases l.cpu.isLocked n <;> simp [store, disabled]
  unlocks n hs := by
    obtain rfl : s = _ := hs
    rw [r.remembers.holds_iff, saved?]
    cases hn : l.values.find? n with
    | none => simp [turn, step_noLock hn, r.remembers.tidy.savedBy_eq_none hn]
    | some old =>
      rw [turn, step_lock hn, onMade_unlock]
      cases l.cpu.savedBy n <;> simp
  drops n hs := by
    obtain rfl : s = _ := hs
    rw [r.remembers.holds_iff, saved?, turn, Locker.step, onGuard]
    cases l.guards.find? n <;> simp
  restores h x hr hx :=
    (r.remembers.tidy.effect s).word_of_releases hr ((r.remembers.saved h _).mpr ⟨x, hx, rfl⟩)
  locked n := (r.step s).remembers.isLocked_iff
  masked hn := ((r.step s).settled hn).masked
  whole hn := ((r.step s).settled hn).whole

theorem turns_answers (l : Locker) (steps : List LockerStep) :
    (l.turns steps).map (fun t => (t.answer, t.after)) = l.run steps := by
  induction steps generalizing l with
  | nil => rfl
  | cons s rest ih => exact congrArg (_ :: ·) (ih _)

/-- **Locks and guards account for the interrupt word.**  In every run, each answer says what is
held, each release puts back the word from just before its acquisition, and with releases in
reverse order the enable bits are clear while anything is held and the word is the initial one
while nothing is. -/
theorem turns_account (word enableMask : Word) (steps : List LockerStep) :
    ((start word enableMask).turns steps).map (fun t => (t.answer, t.after)) =
        (start word enableMask).run steps ∧
      ∀ past now future, (start word enableMask).turns steps = past ++ now :: future →
        now.Accounts word enableMask past := by
  refine ⟨turns_answers _ _, fun past now future heq => ?_⟩
  obtain ⟨r, hnow⟩ := (Reached.start word enableMask).turns heq
  rw [hnow]
  exact r.accounts now.step

/-- Out of order: a lock released before the guard made under it turns interrupts on while the
guard is held, and the guard turns them off for good. -/
example : ((start 1 1).run [.lock "a" (.make 0), .lock "a" .lock, .guard "g" .make,
    .lock "a" .unlock, .guard "g" .drop]).map (fun t => t.2.cpu.word) = [1, 0, 0, 1, 0] := by
  cbv

end Locker

end VirtualFs.Sync
