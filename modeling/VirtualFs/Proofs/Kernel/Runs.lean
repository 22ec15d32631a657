import Mathlib.Data.List.Forall2
import VirtualFs.Proofs.Kernel.Sound

/-!
# Runs of the kernel

A run of the machine, step by step (`Moment`), beginning with nothing made and nothing asked.  Any
events may come in any order: calls while questions are open, answers of every kind, and events
that make no sense.  What is remembered in the books is tied to what can be seen of a run: who was
asked what, and what was answered.

* `Moment.Accounts`: the open files at one moment, in the light of the moments before.
* `Recalls.step`, `Recalls.trace`: one step, and from it every run.
* `openFiles_accounted`: at every moment of every run the open files are accounted for.
* `trace_never_faults`: no run stops with a fault.
-/

namespace VirtualFs

/-- One step of a run. -/
structure Moment where
  before : Machine
  /-- The questions that are open before, the last one first. -/
  questions : List HookCall
  event : Event
  outcome : Outcome
  after : Machine

/-- The call puts up with any answer to its closing: it empties a table, undoes a copy, or has found
no slot for the file. -/
def Frame.renounces : Frame → Bool
  | .abandoning _ _ | .sweeping _ _ _ _ _ | .unwinding _ _ _ => true
  | _ => false

namespace Moment

/-- The question that the event answers, with the answer. -/
def answered? (n : Moment) : Option (HookCall × Reply) :=
  match n.event, n.outcome with
  | .reply _, .refused => none
  | .reply reply, _ => n.questions.head?.map fun question => (question, reply)
  | _, _ => none

/-- The questions that the event leaves open. -/
def below (n : Moment) : List HookCall :=
  match n.event with
  | .reply _ => n.questions.tail
  | _ => n.questions

/-- The questions that are open after the step. -/
def openQuestions (n : Moment) : List HookCall :=
  match n.outcome with
  | .asked question => question :: n.below
  | .returned _ => n.below
  | .refused => n.questions

/-- The handle that a driver is asked to close. -/
def closes? (n : Moment) : Option Handle :=
  n.outcome.closes?

/-- The handle that a driver has closed. -/
def closed? (n : Moment) : Option Handle :=
  match n.answered? with
  | some (.close _ handle, .done) => some handle
  | _ => none

/-- The handle that a driver is asked to close whatever it answers. -/
def renounced? (n : Moment) : Option Handle :=
  match n.after.stack with
  | pending :: _ => if pending.frame.renounces then n.closes? else none
  | [] => none

/-- The handle under which a driver has opened a file. -/
def opened? (n : Moment) : Option Handle :=
  match n.answered? with
  | some (.open _ _ _ _, .opened) => some (.external n.before.kernel.store.nextHandle)
  | _ => none

/-- How many slots hold the descriptor after the step. -/
def opens (n : Moment) (d : Descriptor) : Nat :=
  n.after.kernel.store.opens d

/-- Where no closing is asked for, no handle is renounced. -/
theorem renounced?_eq_none {n : Moment} (h : n.closes? = none) : n.renounced? = none := by
  rw [renounced?]
  split
  · rw [h, ite_self]
  · rfl

/-- **The open files are accounted for** now, after the moments of the past. -/
structure Accounts (past : List Moment) (now : Moment) : Prop where
  /-- The count of a descriptor that has been in a slot is the number of the slots that hold it. -/
  counted : ∀ n ∈ past ++ [now], ∀ d, 0 < n.opens d →
    now.after.kernel.store.references.count d.id = now.opens d
  /-- A driver is asked to close a file only when no slot holds it. -/
  idle : ∀ handle, now.closes? = some handle → ∀ d, d.handle = handle → now.opens d = 0
  /-- A driver is not asked to close what it has closed. -/
  closed : ∀ handle, now.closes? = some handle → ∀ n ∈ past ++ [now], n.closed? ≠ some handle
  /-- Nor is it asked again after a closing that does not look at the answer. -/
  renounced : ∀ handle, now.closes? = some handle → ∀ n ∈ past, n.renounced? ≠ some handle
  /-- A file that a driver has opened is in a slot, or the driver has been asked to close it. -/
  kept : ∀ n ∈ past ++ [now], ∀ handle, n.opened? = some handle →
    (∃ d, d.handle = handle ∧ 0 < now.opens d) ∨ ∃ n' ∈ past ++ [now], n'.closes? = some handle

end Moment

/-- The moments of a run, from a machine with its open questions. -/
def Machine.trace (m : Machine) (questions : List HookCall) : List Event → Checked (List Moment)
  | [] => return []
  | e :: events => do
    let (outcome, after) ← m.step e
    let now : Moment := ⟨m, questions, e, outcome, after⟩
    return now :: (← trace after now.openQuestions events)

/-- One step, and the run that goes on from there. -/
theorem Machine.trace_cons {m m' : Machine} {e : Event} {outcome : Outcome}
    (hstep : m.step e = .ok (outcome, m')) {questions : List HookCall} {events : List Event}
    {moments : List Moment}
    (htrace : m'.trace (Moment.mk m questions e outcome m').openQuestions events = .ok moments) :
    m.trace questions (e :: events) = .ok (⟨m, questions, e, outcome, m'⟩ :: moments) := by
  simp only [trace, hstep, htrace, bind, Except.bind]
  rfl

/-- What is so of the first moment, and of those that come later with it behind them, is so of every
moment. -/
theorem Moment.forall_cons {P : List Moment → Moment → Prop} {past : List Moment} {first : Moment}
    {moments : List Moment} (hfirst : P past first)
    (hlater : ∀ before now after, moments = before ++ now :: after →
      P (past ++ [first] ++ before) now) :
    ∀ before now after, first :: moments = before ++ now :: after → P (past ++ before) now := by
  intro before now after h
  cases before with
  | nil =>
      cases h
      rwa [List.append_nil]
  | cons _ before =>
      obtain ⟨rfl, hrest⟩ := List.cons.inj h
      have hnow := hlater before now after hrest
      rwa [List.append_assoc] at hnow

/-! ### Questions and the calls that put them -/

/-- An answer takes the last question away, with the call that put it. -/
theorem Moment.forall₂_below {R : HookCall → Pending → Prop} {n : Moment}
    (h : List.Forall₂ R n.questions n.before.stack) :
    List.Forall₂ R n.below (n.before.below n.event) := by
  obtain ⟨⟨kernel, stack⟩, questions, event, outcome, after⟩ := n
  cases event with
  | reply reply =>
      cases h with
      | nil => exact .nil
      | cons _ h => exact h
  | _ => exact h

namespace Frame

variable {H H' : History} {frame : Frame} {question : HookCall} {handle : Handle}

/-- What an open question says about handles that are spent. -/
def Awaits (H : History) (question : HookCall) : Frame → Prop
  | .closing _ _ entry => question.closes? = some entry.descriptor.handle
  | _ => ∀ handle, question.closes? = some handle → H.spent handle

theorem Awaits.mono (h : frame.Awaits H question) (hspent : ∀ {a}, H.spent a → H'.spent a) :
    frame.Awaits H' question := by
  cases frame with
  | closing t fd entry => exact h
  | _ => exact fun a ha => hspent (h a ha)

/-- **Who asks for a closing**: the call that closes a slot, or one that renounces the handle. -/
theorem Puts.closes (h : frame.Puts H H' question) (hc : question.closes? = some handle) :
    (∃ t fd entry, frame = .closing t fd entry ∧ entry.descriptor.handle = handle) ∨
      frame.renounces = true ∧ ¬ H.spent handle ∧ H'.spent handle := by
  have hrenounces : (∃ handle, question.closes? = some handle ∧ ¬ H.spent handle ∧
      H'.spent handle) → ¬ H.spent handle ∧ H'.spent handle := by
    rintro ⟨a, ha, hspent⟩
    rw [hc] at ha
    cases ha
    exact hspent
  cases frame with
  | closing t fd entry => exact .inl ⟨t, fd, entry, rfl, Option.some.inj (h.symm.trans hc)⟩
  | abandoning t path => exact .inr ⟨rfl, hrenounces h⟩
  | sweeping t purpose entry remaining next => exact .inr ⟨rfl, hrenounces h⟩
  | unwinding t entry rest => exact .inr ⟨rfl, hrenounces h⟩
  | _ => cases h.symm.trans hc

theorem Puts.awaits (h : frame.Puts H H' question) : frame.Awaits H' question := by
  cases frame with
  | closing t fd entry => exact h
  | _ =>
      intro handle hc
      rcases h.closes hc with ⟨t, fd, entry, he, -⟩ | ⟨-, -, hspent⟩
      · cases he
      · exact hspent

end Frame

/-- The open questions are those of the suspended calls. -/
def Await (H : History) : List HookCall → List Pending → Prop :=
  List.Forall₂ fun question pending => pending.frame.Awaits H question

namespace Await

variable {H H' : History} {questions : List HookCall} {stack : List Pending}

theorem mono (h : Await H questions stack) (hspent : ∀ {a}, H.spent a → H'.spent a) :
    Await H' questions stack :=
  List.Forall₂.imp (fun _ _ h => h.mono hspent) h

end Await

/-! ### What an event adds to what is remembered -/

theorem History.Leads.trans {H H₀ H' : History} {closes : Option Handle} (h : H.Leads none H₀)
    (h' : H₀.Leads closes H') : H.Leads closes H' where
  installed hd := h'.installed (h.installed hd)
  given hg := h'.given (h.given hg)
  asked ha := by
    rcases h'.asked ha with ha | ha
    · exact .inl ((h.asked ha).resolve_right nofun)
    · exact .inr ha
  spent hs := h'.spent (h.spent hs)

theorem History.leads_answered (H : History) (s : Store) (frame : Frame) (reply : Reply) :
    H.Leads none (H.answered s frame reply) := by
  cases frame with
  | opening t path record flags mode =>
      cases reply with
      | opened => exact ⟨id, .inr, .inl, id⟩
      | _ => exact .refl H none
  | closing t fd entry =>
      cases reply with
      | done => exact ⟨id, id, .inl, .inr⟩
      | _ => exact .refl H none
  | _ => exact .refl H none

namespace Machine

variable {H H' : History} {m m' : Machine} {e : Event} {outcome : Outcome}
  {questions : List HookCall} {handle : Handle}

theorem leads_recalled (H : History) (m : Machine) (e : Event) :
    H.Leads none (m.recalled H e) := by
  cases e with
  | reply reply =>
      obtain ⟨kernel, stack⟩ := m
      cases stack with
      | nil => exact .refl H none
      | cons pending rest => exact H.leads_answered kernel.store pending.frame reply
  | _ => exact .refl H none

/-- An answer that is not refused was one to the call on top. -/
theorem accepts_of_step {reply : Reply} (h : m.step (.reply reply) = .ok (outcome, m'))
    (hne : outcome ≠ .refused) :
    ∃ pending rest, m.stack = pending :: rest ∧
      accepts m.kernel.store pending.frame reply = true := by
  obtain ⟨kernel, stack⟩ := m
  cases stack with
  | nil =>
      cases h
      exact absurd rfl hne
  | cons pending rest =>
      refine ⟨pending, rest, rfl, ?_⟩
      by_contra ha
      simp only [Machine.step] at h
      rw [if_neg ha] at h
      cases h
      exact hne rfl

/-- **A handle that a driver gives out** is remembered. -/
theorem recalled_given (h : m.step e = .ok (outcome, m')) (hne : outcome ≠ .refused)
    (ho : (Moment.mk m questions e outcome m').opened? = some handle) :
    (m.recalled H e).given handle := by
  simp only [Moment.opened?, Moment.answered?] at ho
  cases e with
  | reply reply =>
      obtain ⟨pending, rest, hstack, ha⟩ := accepts_of_step h hne
      split at ho
      · rename_i hanswered
        cases ho
        have hreply : reply = .opened := by
          cases outcome <;> cases questions <;> cases hanswered <;> rfl
        subst hreply
        simp only [recalled, hstack]
        cases hframe : pending.frame with
        | opening t path record flags mode => exact .inl rfl
        | transferring t op =>
            rw [hframe] at ha
            cases op <;> cases ha
        | _ => rw [hframe] at ha; cases ha
      · cases ho
  | _ => cases ho

/-- **A handle that a driver has closed** is spent. -/
theorem recalled_spent (h : Await H questions m.stack)
    (hc : (Moment.mk m questions e outcome m').closed? = some handle) :
    (m.recalled H e).spent handle := by
  simp only [Moment.closed?, Moment.answered?] at hc
  obtain ⟨kernel, stack⟩ := m
  cases e with
  | reply reply =>
      cases h with
      | nil => cases outcome <;> cases hc
      | @cons question pending questions rest hawaits _ =>
          have hanswer : (∃ driver, question = .close driver handle) ∧ reply = .done := by
            cases outcome <;> cases question <;> cases reply <;> cases hc <;> exact ⟨⟨_, rfl⟩, rfl⟩
          obtain ⟨⟨driver, rfl⟩, rfl⟩ := hanswer
          cases hframe : pending.frame with
          | closing t fd entry =>
              rw [hframe] at hawaits
              simp only [recalled, hframe]
              exact .inl (Option.some.inj hawaits)
          | _ =>
              rw [hframe] at hawaits
              simp only [recalled, hframe]
              exact hawaits handle rfl
  | _ => cases hc

/-! ### What is known after a step -/

variable {rest : List Pending}

theorem Suspends.ne_refused {stack : List Pending} (h : Suspends H H' rest outcome stack) :
    outcome ≠ .refused := by
  cases h <;> nofun

/-- The open questions stay those of the suspended calls. -/
theorem Suspends.awaits {n : Moment} {stack : List Pending}
    (h : Suspends H H' rest n.outcome stack) (hbelow : Await H' n.below rest) :
    Await H' n.openQuestions stack := by
  obtain ⟨before, questions, event, outcome, after⟩ := n
  cases h with
  | returned result => exact hbelow
  | asked hputs => exact .cons hputs.awaits hbelow

/-- The handle is in no slot, and it was not spent before. -/
theorem Advance.idle (a : Advance H rest outcome m H') (hc : outcome.closes? = some handle) :
    (∀ d, d.handle = handle → m.kernel.store.opens d = 0) ∧ ¬ H.spent handle := by
  obtain ⟨kernel, stack⟩ := m
  obtain ⟨hsound, hleads, hsuspends⟩ := a
  have b := hsound.books
  cases hsuspends with
  | returned result => cases hc
  | asked hputs =>
      rename_i question pending
      rcases hputs.closes hc with ⟨t, fd, entry, hframe, rfl⟩ | ⟨-, hnot, hspent⟩
      -- the file of a closing slot is idle, and a spent handle is in no closing slot
      · have hmem : (⟨t, fd, entry⟩ : Closing) ∈ closings ⟨kernel, pending :: rest⟩ := by
          rw [closings_cons, hframe]
          exact List.mem_cons_self
        obtain ⟨hinstalled, hidle⟩ := b.idle _ hmem
        refine ⟨fun d hd => Nat.eq_zero_of_not_pos fun hpos => ?_, fun hspent => ?_⟩
        · rw [b.handles (b.opened hpos) hinstalled hd] at hpos
          exact Nat.ne_of_gt hpos hidle
        · exact ((b.spent (hleads.spent hspent)).2 _ hinstalled rfl).2 _ hmem rfl
      · refine ⟨fun d hd => Nat.eq_zero_of_not_pos fun hpos => ?_, hnot⟩
        exact Nat.ne_of_gt hpos ((b.spent hspent).2 d (b.opened hpos) hd).1

/-- A handle that is renounced is spent from now on. -/
theorem Advance.renounced {before : Machine} (a : Advance H rest outcome m H')
    (hr : (Moment.mk before questions e outcome m).renounced? = some handle) :
    H'.spent handle := by
  obtain ⟨kernel, stack⟩ := m
  obtain ⟨-, -, hsuspends⟩ := a
  cases hsuspends with
  | returned result =>
      rw [Moment.renounced?_eq_none rfl] at hr
      cases hr
  | asked hputs =>
      simp only [Moment.renounced?, Moment.closes?] at hr
      split at hr
      · rename_i hrenounces
        rcases hputs.closes hr with ⟨t, fd, entry, hframe, -⟩ | ⟨-, -, hspent⟩
        · rw [hframe] at hrenounces
          cases hrenounces
        · exact hspent
      · cases hr

end Machine

/-! ### Runs -/

/-- The moments of the past show what is remembered, and the open questions are those of the
suspended calls. -/
structure Recalls (H : History) (past : List Moment) (m : Machine) (questions : List HookCall) :
    Prop where
  sound : m.Sound H
  awaits : Await H questions m.stack
  installed : ∀ n ∈ past, ∀ d, 0 < n.opens d → H.installed d
  given : ∀ n ∈ past, ∀ handle, n.opened? = some handle → H.given handle
  asked : ∀ handle, H.asked handle → ∃ n ∈ past, n.closes? = some handle
  spent : ∀ n ∈ past, ∀ handle, n.closed? = some handle ∨ n.renounced? = some handle →
    H.spent handle

namespace Recalls

variable {H H' : History} {past : List Moment} {m : Machine} {questions : List HookCall}
  {now : Moment}

theorem initial (word enableMask : Sync.Word) :
    Recalls .empty [] (.initial word enableMask) [] where
  sound := Machine.sound_initial word enableMask
  awaits := .nil
  installed n hn := by cases hn
  given n hn := by cases hn
  asked handle h := h.elim
  spent n hn := by cases hn

/-- One more moment. -/
theorem extend (r : Recalls H past m questions) (now : Moment) {questions' : List HookCall}
    (hsound : now.after.Sound H') (hleads : H.Leads now.closes? H')
    (hawaits : Await H' questions' now.after.stack)
    (hgiven : ∀ handle, now.opened? = some handle → H'.given handle)
    (hspent : ∀ handle, now.closed? = some handle ∨ now.renounced? = some handle →
      H'.spent handle) : Recalls H' (past ++ [now]) now.after questions' where
  sound := hsound
  awaits := hawaits
  installed n hn d hd := by
    rcases List.mem_append.mp hn with hn | hn
    · exact hleads.installed (r.installed n hn d hd)
    · rw [List.mem_singleton.mp hn] at hd
      exact hsound.books.opened hd
  given n hn handle h := by
    rcases List.mem_append.mp hn with hn | hn
    · exact hleads.given (r.given n hn handle h)
    · rw [List.mem_singleton.mp hn] at h
      exact hgiven handle h
  asked handle h := by
    rcases hleads.asked h with h | h
    · obtain ⟨n, hn, hc⟩ := r.asked handle h
      exact ⟨n, List.mem_append_left _ hn, hc⟩
    · exact ⟨now, List.mem_append_right _ List.mem_cons_self, h⟩
  spent n hn handle h := by
    rcases List.mem_append.mp hn with hn | hn
    · exact hleads.spent (r.spent n hn handle h)
    · rw [List.mem_singleton.mp hn] at h
      exact hspent handle h

/-- **The books account for the open files**, if the moment asks for no closing but of what is idle
and has not been spent. -/
theorem accounts (r : Recalls H past m questions)
    (r' : Recalls H' (past ++ [now]) now.after now.openQuestions)
    (hidle : ∀ handle, now.closes? = some handle → ∀ d, d.handle = handle → now.opens d = 0)
    (hfresh : ∀ handle, now.closes? = some handle →
      ¬ H.spent handle ∧ now.closed? ≠ some handle) : now.Accounts past where
  counted n hn d hd := r'.sound.books.counted (r'.installed n hn d hd)
  idle := hidle
  closed handle hc n hn h := by
    rcases List.mem_append.mp hn with hn | hn
    · exact (hfresh handle hc).1 (r.spent n hn handle (.inl h))
    · rw [List.mem_singleton.mp hn] at h
      exact (hfresh handle hc).2 h
  renounced handle hc n hn h := (hfresh handle hc).1 (r.spent n hn handle (.inr h))
  kept n hn handle h := by
    rcases r'.sound.books.accounted (r'.given n hn handle h) with ha | ⟨d, -, hd, hpos⟩
    · exact .inr (r'.asked handle ha)
    · exact .inl ⟨d, hd, hpos⟩

/-- An event that is refused changes nothing. -/
theorem refused (r : Recalls H past m questions) (e : Event) :
    (Moment.mk m questions e .refused m).Accounts past ∧
      Recalls H (past ++ [⟨m, questions, e, .refused, m⟩]) m questions := by
  have hnone : (Moment.mk m questions e .refused m).answered? = none := by
    cases e <;> rfl
  have r' : Recalls H (past ++ [⟨m, questions, e, .refused, m⟩]) m questions := by
    refine r.extend ⟨m, questions, e, .refused, m⟩ r.sound (.refl H none) r.awaits
      (fun handle h => ?_) fun handle h => ?_
    · rw [Moment.opened?, hnone] at h
      cases h
    · rw [Moment.closed?, hnone, Moment.renounced?_eq_none rfl] at h
      rcases h with h | h <;> cases h
  exact ⟨r.accounts r' (fun _ hc => by cases hc) (fun _ hc => by cases hc), r'⟩

/-- An event that makes a step. -/
theorem advance (r : Recalls H past m questions) {e : Event} {outcome : Outcome} {m' : Machine}
    (hstep : m.step e = .ok (outcome, m'))
    (a : Machine.Advance (m.recalled H e) (m.below e) outcome m' H') :
    (Moment.mk m questions e outcome m').Accounts past ∧
      Recalls H' (past ++ [⟨m, questions, e, outcome, m'⟩]) m'
        (Moment.mk m questions e outcome m').openQuestions := by
  have hrecalled := m.leads_recalled H e
  have hleads := hrecalled.trans a.leads
  have hbelow : Await H' (Moment.mk m questions e outcome m').below (m.below e) :=
    Moment.forall₂_below (n := ⟨m, questions, e, outcome, m'⟩) (r.awaits.mono hleads.spent)
  have r' := r.extend ⟨m, questions, e, outcome, m'⟩ a.sound hleads (a.suspends.awaits hbelow)
    (fun handle h => a.leads.given (Machine.recalled_given hstep a.suspends.ne_refused h))
    (fun handle h => h.elim (fun h => a.leads.spent (Machine.recalled_spent r.awaits h))
      a.renounced)
  refine ⟨r.accounts r' (fun handle hc => (a.idle hc).1) fun handle hc => ?_, r'⟩
  obtain ⟨-, hfresh⟩ := a.idle hc
  exact ⟨fun h => hfresh (hrecalled.spent h), fun h => hfresh (Machine.recalled_spent r.awaits h)⟩

/-- **One step** is no fault, accounts for the open files, and leaves everything remembered. -/
theorem step (r : Recalls H past m questions) (e : Event) :
    ∃ outcome m', m.step e = .ok (outcome, m') ∧
      (Moment.mk m questions e outcome m').Accounts past ∧
      ∃ H', Recalls H' (past ++ [⟨m, questions, e, outcome, m'⟩]) m'
        (Moment.mk m questions e outcome m').openQuestions := by
  rcases r.sound.step e with hstep | ⟨outcome, m', H', hstep, a⟩
  · obtain ⟨haccounts, r'⟩ := r.refused e
    exact ⟨.refused, m, hstep, haccounts, H, r'⟩
  · obtain ⟨haccounts, r'⟩ := r.advance hstep a
    exact ⟨outcome, m', hstep, haccounts, H', r'⟩

/-- **A run** is no fault, and accounts for the open files at every moment. -/
theorem trace (r : Recalls H past m questions) (events : List Event) :
    ∃ moments, m.trace questions events = .ok moments ∧ moments.map (·.event) = events ∧
      ∀ before now after, moments = before ++ now :: after → now.Accounts (past ++ before) := by
  induction events generalizing H past m questions with
  | nil => exact ⟨[], rfl, rfl, fun before now after h => by simp at h⟩
  | cons e events ih =>
      obtain ⟨outcome, m', hstep, haccounts, H', r'⟩ := r.step e
      -- the moments to come are those of a run with one moment more behind it
      obtain ⟨moments, htrace, hevents, hmoments⟩ := ih r'
      exact ⟨⟨m, questions, e, outcome, m'⟩ :: moments, Machine.trace_cons hstep htrace,
        congrArg (e :: ·) hevents, Moment.forall_cons haccounts hmoments⟩

end Recalls

/-- **Open files are accounted for** at every moment of every run: whatever drivers call and answer
while they are asked, counts are the numbers of holders, no driver is asked to close a file that is
in use or that it has closed, and no file is lost. -/
theorem openFiles_accounted (word enableMask : Sync.Word) (events : List Event) :
    ∃ moments, (Machine.initial word enableMask).trace [] events = .ok moments ∧
      ∀ past now future, moments = past ++ now :: future → now.Accounts past := by
  obtain ⟨moments, htrace, -, haccounts⟩ := (Recalls.initial word enableMask).trace events
  exact ⟨moments, htrace, haccounts⟩

/-- **No run stops with a fault**: every event is taken or refused, whatever the events are and in
whatever order they come. -/
theorem trace_never_faults (word enableMask : Sync.Word) (events : List Event) :
    ∃ moments, (Machine.initial word enableMask).trace [] events = .ok moments ∧
      moments.map (·.event) = events := by
  obtain ⟨moments, htrace, hevents, -⟩ := (Recalls.initial word enableMask).trace events
  exact ⟨moments, htrace, hevents⟩

end VirtualFs
