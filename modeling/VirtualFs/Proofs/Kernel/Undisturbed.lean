import VirtualFs.Proofs.Kernel.Replies

/-!
# Drivers that do not call back

While a question is open any calls may come in, and may change what they like.  Where nothing comes
in but answers (`Moment.Quiet`), nothing changes: an answer that is not the one to the question is
refused.  So a call whose drivers do not call back finds everything as it has left it, and what it
comes to is said of the state it began with.

* `Happens.same_of_unanswered`: an answer that answers nothing changes nothing.
* `Undisturbed.step`, `Recalls.reached_undisturbed`: at every moment of every run (`Attested`).
* `Undisturbed.turns`: what holds of all turns of a call.
-/

namespace VirtualFs

/-- Nothing comes in but answers: those who are asked do not call back. -/
def Moment.Quiet (later : List Moment) : Prop :=
  ∀ n ∈ later, ∃ reply, n.event = .reply reply

theorem Moment.quiet_append {later more : List Moment} :
    Quiet (later ++ more) ↔ Quiet later ∧ Quiet more :=
  List.forall_mem_append

/-- As long as a question is open and nobody calls, everything is as it was when it was asked. -/
def Undisturbed (past : List Moment) (m : Machine) : Prop :=
  ∀ a turn b, past = a ++ turn :: b → turn.Pends b → Moment.Quiet b → m = turn.after

/-- An answer sets nothing going but a call that has been suspended. -/
theorem Machine.resume_of_job {m : Machine} {reply : Reply} {job : Job} {origin : Origin}
    (h : m.job? (.reply reply) = some (job, origin)) : ∃ frame, job = .resume frame reply := by
  obtain ⟨kernel, stack⟩ := m
  cases stack with
  | nil => cases h
  | cons pending rest =>
    rw [job?] at h
    dsimp only at h
    split at h
    · cases h
      exact ⟨pending.frame, rfl⟩
    · cases h

variable {past : List Moment} {now : Moment}

/-- An answer that answers nothing changes nothing. -/
theorem Happens.same_of_unanswered (h : Happens past now)
    (k : Asking now.questions now.before.stack) {reply : Reply} (he : now.event = .reply reply)
    (hnone : now.answered? = none) : now.after = now.before := by
  rcases Machine.step_cases h.step with ⟨-, -, hafter⟩ | ⟨job, origin, p, c⟩
  · exact hafter
  · obtain ⟨frame, rfl⟩ := Machine.resume_of_job (he ▸ c.sets)
    obtain ⟨question, hanswered, -⟩ := answers k c
    cases hnone.symm.trans hanswered

namespace Undisturbed

theorem initial (word enableMask : Sync.Word) : Undisturbed [] (.initial word enableMask) := by
  intro a turn b h
  simp at h

/-- **Every step**: as long as nobody calls, only the question can be answered. -/
theorem step (h : Happens past now) (ha : Asking now.questions now.before.stack)
    (k : Undisturbed past now.before) : Undisturbed (past ++ [now]) now.after := by
  intro a turn b heq hpends hquiet
  rcases concat_eq_append_cons heq with ⟨-, rfl, rfl⟩ | ⟨b, rfl, rfl⟩
  · rfl
  · obtain ⟨hpends, hopen⟩ := Moment.pends_append.mp hpends
    obtain ⟨hquiet, hreply⟩ := Moment.quiet_append.mp hquiet
    obtain ⟨reply, hevent⟩ := hreply now List.mem_cons_self
    have hsame := k _ _ _ rfl hpends hquiet
    -- nothing was asked since, so an answer would be one to the question
    have hnone : now.answered? = none := by
      by_contra hsome
      exact absurd (hopen hsome) (by rw [hsame]; exact Nat.lt_irrefl _)
    exact (h.same_of_unanswered ha hevent hnone).trans hsame

end Undisturbed

/-- What is known of every moment of a run: how suspended calls are found. -/
structure Attested (past : List Moment) (now : Moment) : Prop where
  happens : Happens past now
  suspended : Suspended past now.before
  undisturbed : Undisturbed past now.before

/-- **What every step keeps** holds at every moment of every run, where a suspended call is found as
it was left unless somebody calls. -/
theorem Recalls.reached_undisturbed {I : List Moment → Machine → Prop}
    (hstep : ∀ {past now}, Happens past now → Asking now.questions now.before.stack →
      I past now.before → I (past ++ [now]) now.after)
    (word enableMask : Sync.Word) (hI : I [] (.initial word enableMask)) (events : List Event) :
    ∃ moments, (Machine.initial word enableMask).trace [] events = .ok moments ∧
      ∀ past now future, moments = past ++ now :: future →
        Attested past now ∧ I past now.before := by
  obtain ⟨moments, htrace, hmoments⟩ := Recalls.reached_asking
    (I := fun past m => Suspended past m ∧ Undisturbed past m ∧ I past m)
    (fun h ha k => ⟨k.1.step h ha, k.2.1.step h ha, hstep h ha k.2.2⟩) word enableMask
    ⟨.initial word enableMask, .initial word enableMask, hI⟩ events
  refine ⟨moments, htrace, fun past now future he => ?_⟩
  obtain ⟨h, -, ⟨hsuspended, hundisturbed, k⟩, -⟩ := hmoments past now future he
  exact ⟨⟨h, hsuspended, hundisturbed⟩, k⟩

/-- **From turn to turn** of a call whose drivers do not call back: every turn finds the machine as
the last one has left it. -/
theorem Undisturbed.turns {moments past later future : List Moment} {start now : Moment}
    {dialogue : List (HookCall × Reply)} {P : List (HookCall × Reply) → Moment → Prop}
    (hmoments : ∀ past now future, moments = past ++ now :: future → Attested past now)
    (he : moments = past ++ start :: (later ++ future)) (hturn : start.Turn later dialogue now)
    (hquiet : Moment.Quiet later) (hbegin : P [] start)
    (hnext : ∀ {past dialogue turn now question reply}, P dialogue turn → Happens past now →
      now.before = turn.after → turn.Continues now question reply →
      P (dialogue ++ [(question, reply)]) now) : P dialogue now := by
  refine Suspended.turns_within (J := fun past now => Undisturbed past now.before)
    (P := fun later dialogue now => Moment.Quiet later → P dialogue now)
    (fun past now future he => ?_) he hturn (fun _ => hbegin)
    (fun _ hP h hundisturbed hpends hc hquiet => ?_) hquiet
  · have k := hmoments past now future he
    exact ⟨k.happens, k.suspended, k.undisturbed⟩
  · obtain ⟨hquiet, -⟩ := Moment.quiet_append.mp hquiet
    obtain ⟨hquiet, hmore⟩ := Moment.quiet_append.mp hquiet
    exact hnext (hP hquiet) h (hundisturbed _ _ _ rfl hpends hmore) hc

end VirtualFs
