import VirtualFs.Proofs.Kernel.Questions
import VirtualFs.Proofs.Since

/-!
# Which step answers which

A question that a step asks stays open until a later step brings the answer (`Moment.Answered`).  In
between any calls may come in, and may ask questions of their own, which are answered first.  All
the while the call that asked is suspended where it was, and so the answer finds it there.

A call that asks more than one question takes as many turns (`Moment.Turn`), and what it has asked
and been told so far is a dialogue.  Whatever is true of its first step and kept by every answer is
true of all its turns (`Suspended.turns`).

* `Happens.suspends`: a step that does not answer a question leaves its call suspended.
* `Suspended.step`: so a call is suspended for as long as its question is open.
* `Suspended.resumes`: the answer to a question goes to the call that asked it.
* `Recalls.reached_suspended`: so it is at every moment of every run.
-/

namespace VirtualFs

namespace Moment

/-- The question that `start` has asked is still open after the later moments: what has been
answered since was asked after it. -/
def Pends (start : Moment) (later : List Moment) : Prop :=
  (∃ question, start.outcome = .asked question) ∧
    ∀ n ∈ later, n.answered? ≠ none → start.after.stack.length < n.before.stack.length

/-- After the moments between them, `now` brings the reply to the question that `start` has
asked. -/
structure Answered (start : Moment) (between : List Moment) (now : Moment) (reply : Reply) :
    Prop where
  pends : start.Pends between
  /-- No other question is open that was asked after it. -/
  last : now.before.stack.length = start.after.stack.length
  event : now.event = .reply reply

theorem pends_append {start now : Moment} {later : List Moment} :
    start.Pends (later ++ [now]) ↔ start.Pends later ∧
      (now.answered? ≠ none → start.after.stack.length < now.before.stack.length) := by
  simp only [Pends, List.forall_mem_append, List.forall_mem_singleton, and_assoc]

end Moment

/-- Calls that have asked a question are suspended for as long as it is open. -/
def Suspended (past : List Moment) (m : Machine) : Prop :=
  ∀ a start b, past = a ++ start :: b → start.Pends b → start.after.stack <:+ m.stack

namespace Happens

variable {past : List Moment} {now : Moment}

/-- **A step** that does not go on with a suspended call leaves it suspended. -/
theorem suspends (h : Happens past now) (k : Asking now.questions now.before.stack)
    {stack : List Pending} (hstack : stack <:+ now.before.stack)
    (hopen : now.answered? ≠ none → stack.length < now.before.stack.length) :
    stack <:+ now.after.stack := by
  rcases Machine.step_cases h.step with ⟨-, -, hafter⟩ | ⟨job, origin, p, c⟩
  · exact hafter ▸ hstack
  have hbelow : stack <:+ now.before.below now.event := by
    cases job with
    | resume frame reply =>
      obtain ⟨question, hanswered, -⟩ := answers k c
      obtain ⟨-, htop, -⟩ := Machine.stack_of_job c.sets
      have hlt := hopen (by rw [hanswered]; nofun)
      rw [htop] at hstack hlt
      rcases List.suffix_cons_iff.mp hstack with rfl | hstack
      · exact absurd hlt (Nat.lt_irrefl _)
      · exact hstack
    | _ => rwa [Machine.below_of_job c.sets fun _ _ => Job.noConfusion]
  cases p with
  | finished result => exact c.ends.of_finished.2 ▸ hbelow
  | waiting question frame cpu =>
    exact c.ends.of_waiting.2 ▸ hbelow.trans (List.suffix_cons _ _)

end Happens

namespace Suspended

variable {past : List Moment} {now : Moment}

theorem initial (word enableMask : Sync.Word) : Suspended [] (.initial word enableMask) := by
  intro a start b h
  simp at h

/-- **Every step** keeps the calls suspended whose questions stay open. -/
theorem step (h : Happens past now) (ha : Asking now.questions now.before.stack)
    (k : Suspended past now.before) : Suspended (past ++ [now]) now.after := by
  intro a start b heq hpends
  rcases concat_eq_append_cons heq with ⟨-, rfl, rfl⟩ | ⟨b, rfl, rfl⟩
  · exact List.suffix_rfl
  · obtain ⟨hpends, hopen⟩ := Moment.pends_append.mp hpends
    exact h.suspends ha (k _ _ _ rfl hpends) hopen

section

variable {a between : List Moment} {start : Moment} {frame : Frame} {origin : Origin}
  {rest : List Pending} {reply : Reply}

/-- The answer finds the call where it was suspended. -/
theorem stack_eq (k : Suspended past now.before) (hpast : past = a ++ start :: between)
    (hstack : start.after.stack = ⟨frame, origin⟩ :: rest) (ha : start.Answered between now reply) :
    now.before.stack = ⟨frame, origin⟩ :: rest :=
  ((k _ _ _ hpast ha.pends).eq_of_length ha.last.symm).symm.trans hstack

/-- An answer that is not refused is one to the question. -/
theorem accepts (k : Suspended past now.before) (h : Happens past now)
    (hpast : past = a ++ start :: between)
    (hstack : start.after.stack = ⟨frame, origin⟩ :: rest) (ha : start.Answered between now reply)
    (htaken : now.outcome ≠ .refused) :
    Machine.accepts now.before.kernel.store frame reply = true := by
  obtain ⟨pending, below, hbefore, haccepts⟩ := Machine.accepts_of_step (ha.event ▸ h.step) htaken
  cases (k.stack_eq hpast hstack ha).symm.trans hbefore
  exact haccepts

/-- **The answer** to a question goes to the call that asked it. -/
theorem resumes (k : Suspended past now.before) (h : Happens past now)
    (hpast : past = a ++ start :: between)
    (hstack : start.after.stack = ⟨frame, origin⟩ :: rest) (ha : start.Answered between now reply)
    (haccepts : Machine.accepts now.before.kernel.store frame reply = true) :
    ∃ p, Machine.Carried now.before now.event now.outcome now.after (.resume frame reply) origin p ∧
      now.before.below now.event = rest := by
  have hbefore := k.stack_eq hpast hstack ha
  have hjob : now.before.job? now.event = some (.resume frame reply, origin) := by
    rw [ha.event, Machine.job?, hbefore]
    exact if_pos haccepts
  obtain ⟨p, c⟩ := h.carried hjob
  obtain ⟨-, hbelow, -⟩ := Machine.stack_of_job hjob
  exact ⟨p, c, (List.cons.inj (hbelow.symm.trans hbefore)).2⟩

end

end Suspended

/-- **What every step keeps** holds at every moment of every run, and the calls that have asked a
question are suspended. -/
theorem Recalls.reached_suspended {I : List Moment → Machine → Prop}
    (hstep : ∀ {past now}, Happens past now → I past now.before → I (past ++ [now]) now.after)
    (word enableMask : Sync.Word) (hI : I [] (.initial word enableMask)) (events : List Event) :
    ∃ moments, (Machine.initial word enableMask).trace [] events = .ok moments ∧
      ∀ past now future, moments = past ++ now :: future →
        Happens past now ∧ Suspended past now.before ∧ I past now.before := by
  obtain ⟨moments, htrace, hmoments⟩ := Recalls.reached_asking
    (I := fun past m => Suspended past m ∧ I past m)
    (fun h ha k => ⟨k.1.step h ha, hstep h k.2⟩) word enableMask
    ⟨.initial word enableMask, hI⟩ events
  refine ⟨moments, htrace, fun past now future he => ?_⟩
  obtain ⟨h, -, ⟨hsuspended, hbefore⟩, -⟩ := hmoments past now future he
  exact ⟨h, hsuspended, hbefore⟩

/-! ### Turns -/

namespace Moment

/-- The step asks the question for a call from outside, and leaves `frame` to do. -/
structure Waits (n : Moment) (question : HookCall) (frame : Frame) : Prop where
  asked : n.outcome = .asked question
  stack : n.after.stack = ⟨frame, .direct⟩ :: n.before.below n.event

/-- The call that `turn` has suspended goes on with `now`, which brings the reply. -/
structure Continues (turn now : Moment) (question : HookCall) (reply : Reply) : Prop where
  asked : turn.outcome = .asked question
  carried : ∀ {frame rest}, turn.after.stack = ⟨frame, .direct⟩ :: rest →
    Machine.accepts now.before.kernel.store frame reply = true ∧
      ∃ p, Machine.Carried now.before now.event now.outcome now.after (.resume frame reply)
        .direct p

/-- **The turns of a call** that begins with `start`: after the later moments it has asked the
questions of the dialogue and been given the answers, the last of them `now`. -/
inductive Turn (start : Moment) : List Moment → List (HookCall × Reply) → Moment → Prop
  | begin : Turn start [] [] start
  | reply {later more : List Moment} {dialogue : List (HookCall × Reply)} {turn now : Moment}
      {question : HookCall} {reply : Reply} (h : Turn start later dialogue turn)
      (hasked : turn.outcome = .asked question) (ha : turn.Answered more now reply)
      (htaken : now.outcome ≠ .refused) :
      Turn start (later ++ more ++ [now]) (dialogue ++ [(question, reply)]) now

/-- A turn is the last of the moments so far. -/
theorem Turn.exists_front {start now : Moment} {later : List Moment}
    {dialogue : List (HookCall × Reply)} (h : start.Turn later dialogue now) :
    ∃ front, start :: later = front ++ [now] := by
  cases h with
  | begin => exact ⟨[], rfl⟩
  | reply => exact ⟨_ :: (_ ++ _), rfl⟩

/-- A call of which a step has been taken was not refused. -/
theorem Turn.taken {start now : Moment} {later : List Moment} {dialogue : List (HookCall × Reply)}
    (h : start.Turn later dialogue now) (htaken : now.outcome ≠ .refused) :
    start.outcome ≠ .refused := by
  induction h with
  | begin => exact htaken
  | reply _ hasked _ _ ih => exact ih (by rw [hasked]; nofun)

end Moment

/-- **From turn to turn** of a call: what holds of its first step, and is kept by every answer,
holds of all its turns.  Of the moment of an answer `J` is known besides, and which moments it has
behind it. -/
theorem Suspended.turns_within {moments past later future : List Moment} {start now : Moment}
    {dialogue : List (HookCall × Reply)} {J : List Moment → Moment → Prop}
    {P : List Moment → List (HookCall × Reply) → Moment → Prop}
    (hmoments : ∀ past now future, moments = past ++ now :: future →
      Happens past now ∧ Suspended past now.before ∧ J past now)
    (he : moments = past ++ start :: (later ++ future)) (hturn : start.Turn later dialogue now)
    (hbegin : P [] [] start)
    (hnext : ∀ {a later more dialogue turn now question reply}, start.Turn later dialogue turn →
      P later dialogue turn → Happens (a ++ turn :: more) now → J (a ++ turn :: more) now →
      turn.Pends more → turn.Continues now question reply →
      P (later ++ more ++ [now]) (dialogue ++ [(question, reply)]) now) : P later dialogue now := by
  induction hturn generalizing future with
  | begin => exact hbegin
  | @reply later more dialogue turn now question reply hturn hasked ha htaken ih =>
    have hbefore : moments = past ++ start :: (later ++ (more ++ now :: future)) := by
      simpa using he
    obtain ⟨h, k, hJ⟩ :=
      hmoments (past ++ start :: (later ++ more)) now future (by simpa using he)
    obtain ⟨front, hfront⟩ := hturn.exists_front
    have hpast : past ++ start :: (later ++ more) = (past ++ front) ++ turn :: more := by
      rw [← List.cons_append, hfront]
      simp
    refine hnext hturn (ih hbefore) (hpast ▸ h) (hpast ▸ hJ) ha.pends ⟨hasked, fun hstack => ?_⟩
    have haccepts := k.accepts h hpast hstack ha htaken
    obtain ⟨p, c, -⟩ := k.resumes h hpast hstack ha haccepts
    exact ⟨haccepts, p, c⟩

theorem Suspended.turns {moments past later future : List Moment} {start now : Moment}
    {dialogue : List (HookCall × Reply)} {P : List (HookCall × Reply) → Moment → Prop}
    (hmoments : ∀ past now future, moments = past ++ now :: future →
      Happens past now ∧ Suspended past now.before)
    (he : moments = past ++ start :: (later ++ future)) (hturn : start.Turn later dialogue now)
    (hbegin : P [] start)
    (hnext : ∀ {past later dialogue turn now question reply}, start.Turn later dialogue turn →
      P dialogue turn → Happens past now → turn.Continues now question reply →
      P (dialogue ++ [(question, reply)]) now) : P dialogue now := by
  refine turns_within (J := fun _ _ => True) (P := fun _ => P) (fun past now future he => ?_) he
    hturn hbegin fun hturn hP h _ _ hc => hnext hturn hP h hc
  obtain ⟨h, k⟩ := hmoments past now future he
  exact ⟨h, k, trivial⟩

end VirtualFs
