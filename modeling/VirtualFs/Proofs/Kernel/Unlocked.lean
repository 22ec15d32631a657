import VirtualFs.Proofs.Kernel.Steps

/-!
# No lock is held while others run

The kernel takes its locks to look at shared state, and releases them before it asks a driver or a
filesystem and before it returns.  What it holds is part of its state (`Sync.Cpu.held`) from one
step to the next, and a question leaves it as it was where the question was put: if a driver were
asked under a lock, the lock would be held after the step, and a call of the driver that wants it
would stop with a fault.

In a run every call comes in with an interrupt word of its own (`Machine.visits`); a driver makes
its calls with any words, and gives its answer with the word that it was asked with.

* `Sound.cpu_eq`: a step leaves the locks and the interrupt word as they were.
* `run_holding_ask`, `Visit.Unlocked.ne_acquire`: what a question put under a lock would leave, and
  that no visit leaves it.
* `hooks_unlocked`: every hook is asked, and every call returns, with no lock held and with the
  interrupt word that the call came in with.
-/

namespace VirtualFs

open Sync (Word)

/-- A step of a run, the interrupt word that its call came in with, and those of the calls that were
suspended before it, the last one first. -/
structure Visit where
  word : Word
  words : List Word
  moment : Moment

namespace Event

/-- The interrupt word that an event comes in with, where suspended calls came in with the words in
`words`: an answer lets the last of them go on, and anything else comes in with a word of its
own. -/
def word (own : Word) (words : List Word) : Event → Word
  | .reply _ => words.headD own
  | _ => own

/-- The words of the calls that stay suspended when the event has come in. -/
def below (words : List Word) : Event → List Word
  | .reply _ => words.tail
  | _ => words

end Event

/-- The words of the calls that are suspended after the step, where `word` is the one of the call
that makes it. -/
def Moment.openWords (n : Moment) (word : Word) (words : List Word) : List Word :=
  match n.outcome with
  | .asked _ => word :: n.event.below words
  | .returned _ => n.event.below words
  | .refused => words

namespace Machine

variable {H : History} {m m' : Machine} {e : Event} {outcome : Outcome}

/-- The machine, entered with an interrupt word. -/
def entered (m : Machine) (word : Word) : Machine :=
  { m with kernel := { m.kernel with cpu := m.kernel.cpu.restore word } }

/-- A run of events, each with an interrupt word of its own. -/
def visits (m : Machine) (questions : List HookCall) (words : List Word) :
    List (Word × Event) → Checked (List Visit)
  | [] => return []
  | (own, e) :: entries => do
    let word := e.word own words
    let (outcome, after) ← (m.entered word).step e
    let now : Moment := ⟨m.entered word, questions, e, outcome, after⟩
    let more ← visits after now.openQuestions (now.openWords word words) entries
    return ⟨word, words, now⟩ :: more

/-- There is one word for each suspended call. -/
theorem length_openWords (hstep : m.step e = .ok (outcome, m')) {words : List Word}
    (hwords : words.length = m.stack.length) (questions : List HookCall) (word : Word) :
    ((Moment.mk m questions e outcome m').openWords word words).length = m'.stack.length := by
  have hbelow : (e.below words).length = (m.below e).length := by
    cases e with
    | reply reply => simp only [Event.below, below, List.length_tail, hwords]
    | _ => exact hwords
  rcases step_cases hstep with ⟨-, rfl, rfl⟩ | ⟨job, origin, p, c⟩
  · exact hwords
  cases p with
  | finished result =>
      obtain ⟨rfl, hstack⟩ := c.ends.of_finished
      rw [hstack]
      exact hbelow
  | waiting question frame cpu =>
      obtain ⟨rfl, hstack⟩ := c.ends.of_waiting
      rw [hstack]
      exact congrArg (· + 1) hbelow

/-- The interrupt word is no matter. -/
theorem Sound.entered (h : m.Sound H) (word : Word) : (m.entered word).Sound H :=
  ⟨h.unlocked, h.served, h.books, h.valid, h.dropped⟩

/-- **A step** leaves the locks and the interrupt word as they were. -/
theorem Sound.cpu_eq (h : m.Sound H) (hstep : m.step e = .ok (outcome, m')) :
    m'.kernel.cpu = m.kernel.cpu := by
  rw [step_eq] at hstep
  cases hjob : m.job? e with
  | none =>
      rw [hjob] at hstep
      cases hstep
      rfl
  | some found =>
      obtain ⟨job, origin⟩ := found
      obtain ⟨p, s', hy, hput⟩ := h.yields hjob
      obtain ⟨journal, outcome, stack, -, hrun⟩ := run_eq origin (m.below e) hy
      rw [hjob] at hstep
      cases hrun.symm.trans hstep
      exact hput

/-- **A question put under a lock** leaves the lock held, although the action that puts it would
have released it when it was done. -/
theorem run_holding_ask {α : Type} {kernel : Kernel} {stack : List Pending} {origin : Origin}
    {act : Action α} {a : α} {s' : Store} {l : LockId} (hfree : kernel.cpu.isLocked l = false)
    (hact : act.Yields (kernel.cpu.acquire l) kernel.store a s') (question : α → HookCall)
    (frame : α → Frame) :
    ∃ m', run kernel stack origin
        (Action.holding l (act >>= fun a => Action.ask (question a) (frame a))) =
        .ok (.asked (question a), m') ∧ m'.kernel.cpu = kernel.cpu.acquire l := by
  have hasks : (act >>= fun a => Action.ask (question a) (frame a)).Yields
      (kernel.cpu.acquire l) kernel.store
      (.waiting (question a) (frame a) (kernel.cpu.acquire l)) s' :=
    hact.bind (Action.yields_ask _ _)
  obtain ⟨journal, hrun⟩ := run_asked origin (Action.yields_holding hfree hasks)
  exact ⟨_, hrun, rfl⟩

end Machine

/-- **The kernel is entered and left with no lock held**, and left with the interrupt word that it
was entered with. -/
structure Visit.Unlocked (enableMask : Word) (v : Visit) : Prop where
  entered : v.moment.before.kernel.cpu = ⟨v.word, enableMask, []⟩
  left : v.moment.after.kernel.cpu = ⟨v.word, enableMask, []⟩
  /-- One word is kept for each suspended call. -/
  words : v.words.length = v.moment.before.stack.length

/-- No lock has just been taken. -/
theorem Visit.Unlocked.ne_acquire {enableMask : Word} {v : Visit} (h : v.Unlocked enableMask)
    (cpu : Sync.Cpu LockId) (l : LockId) : v.moment.after.kernel.cpu ≠ cpu.acquire l := by
  intro hafter
  have hheld : [] = (l, cpu.word) :: cpu.held :=
    congrArg Sync.Cpu.held (h.left.symm.trans hafter)
  cases hheld

/-- **A run** is no fault, and no step of it leaves a lock held or the interrupt word changed. -/
theorem Machine.Sound.visits {H : History} {m : Machine} (h : m.Sound H)
    (questions : List HookCall) {words : List Word} (hwords : words.length = m.stack.length)
    (entries : List (Word × Event)) :
    ∃ visits, m.visits questions words entries = .ok visits ∧
      visits.map (·.moment.event) = entries.map (·.2) ∧
      ∀ v ∈ visits, v.Unlocked m.kernel.cpu.enableMask := by
  induction entries generalizing H m questions words with
  | nil => exact ⟨[], rfl, rfl, fun v hv => by cases hv⟩
  | cons entry entries ih =>
      obtain ⟨own, e⟩ := entry
      have hentered := h.entered (e.word own words)
      obtain ⟨outcome, m', H', hstep, h'⟩ := hentered.exists_step e
      have hbefore : (m.entered (e.word own words)).kernel.cpu =
          ⟨e.word own words, m.kernel.cpu.enableMask, []⟩ := by
        rw [Machine.entered, Sync.Cpu.restore, h.unlocked]
      have hafter := (hentered.cpu_eq hstep).trans hbefore
      let now : Moment := ⟨m.entered (e.word own words), questions, e, outcome, m'⟩
      obtain ⟨visits, hvisits, hevents, hall⟩ :=
        ih h' now.openQuestions (length_openWords hstep hwords questions (e.word own words))
      rw [hafter] at hall
      refine ⟨⟨e.word own words, words, now⟩ :: visits, ?_, congrArg (e :: ·) hevents,
        List.forall_mem_cons.mpr ⟨⟨hbefore, hafter, hwords⟩, hall⟩⟩
      simp only [Machine.visits, hstep, hvisits, now, bind, Except.bind]
      rfl

/-- **Drivers and filesystems are asked with no lock held**: whatever calls they make while they
are asked, with whatever interrupt words, no call takes a lock that is held, every question is put
and every call returns with no lock held, and the interrupt word is then the one that the call came
in with. -/
theorem hooks_unlocked (word enableMask : Word) (entries : List (Word × Event)) :
    ∃ visits, (Machine.initial word enableMask).visits [] [] entries = .ok visits ∧
      visits.map (·.moment.event) = entries.map (·.2) ∧ ∀ v ∈ visits, v.Unlocked enableMask :=
  (Machine.sound_initial word enableMask).visits [] rfl entries

/-- A lock that stays held stops the next call that wants it. -/
example : Machine.step ⟨⟨.initial, Sync.Cpu.acquire ⟨1, 1, []⟩ (.table 0), []⟩, []⟩
    (.call (.close 0 0)) = .error .deadlock := rfl

end VirtualFs
