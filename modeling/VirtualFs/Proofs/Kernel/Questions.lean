import VirtualFs.Proofs.Kernel.MountEffects

/-!
# What suspended calls have asked

What is left to do of a suspended call tells which question it has asked (`Frame.Asks`), and an
answer goes to the call that asked last.  So what a driver or a filesystem has answered can be read
off the call that goes on.

* `Happens.asks`: what a step asks.
* `Happens.asking`, `Recalls.reached_asking`: the open questions are those of the suspended calls,
  in every run.
* `Happens.answered`, `Happens.answers`: which call an answer goes to.
-/

namespace VirtualFs

/-- The question is one that the suspended call asks. -/
def Frame.Asks (question : HookCall) : Frame → Prop
  | .opening _ _ record flags mode =>
    ∃ driver path, record.driver = .external driver ∧ question = .open driver path flags mode
  | .abandoning _ _ => ∃ driver handle, question = .close driver handle
  | .closing _ _ entry | .sweeping _ _ entry _ _ | .unwinding _ entry _ => question.Closes entry
  | .transferring _ op => ∃ driver handle, question = op.question driver handle
  | .probing _ _ _ fs _ | .mounting _ _ _ fs => ∃ path device, question = .mount fs path device
  | .undoing _ _ => ∃ fs driver, question = .unmount fs driver
  | .unmounting _ _ record => ∃ fs, record.fs = some fs ∧ question = .unmount fs record.driver

namespace Frame.Asks

variable {frame : Frame} {fs : FileSystem}

/-- A filesystem makes a driver for a call that mounts. -/
theorem of_mount {path device : Path} (h : frame.Asks (.mount fs path device)) :
    frame.maker? = some fs := by
  cases frame with
  | probing | mounting =>
      obtain ⟨_, _, he⟩ := h
      cases he
      rfl
  | transferring t op =>
      obtain ⟨_, _, he⟩ := h
      cases op <;> cases he
  | opening =>
      obtain ⟨_, _, -, he⟩ := h
      cases he
  | abandoning | undoing =>
      obtain ⟨_, _, he⟩ := h
      cases he
  | closing | sweeping | unwinding | unmounting =>
      obtain ⟨_, -, he⟩ := h
      cases he

/-- A filesystem gives a driver up for a call that unmounts, or one that could not mount. -/
theorem of_unmount {driver : Driver} (h : frame.Asks (.unmount fs driver)) :
    (∃ v path r, frame = .unmounting v path r ∧ r.fs = some fs ∧ r.driver = driver) ∨
      ∃ device e, frame = .undoing device e := by
  cases frame with
  | unmounting v path r =>
      obtain ⟨_, hfs, he⟩ := h
      cases he
      exact .inl ⟨v, path, r, rfl, hfs, rfl⟩
  | undoing device e => exact .inr ⟨device, e, rfl⟩
  | transferring t op =>
      obtain ⟨_, _, he⟩ := h
      cases op <;> cases he
  | opening =>
      obtain ⟨_, _, -, he⟩ := h
      cases he
  | abandoning | probing | mounting =>
      obtain ⟨_, _, he⟩ := h
      cases he
  | closing | sweeping | unwinding =>
      obtain ⟨_, -, he⟩ := h
      cases he

end Frame.Asks

/-- The open questions are those of the suspended calls. -/
def Asking : List HookCall → List Pending → Prop :=
  List.Forall₂ fun question pending => pending.frame.Asks question

/-- **What a job on files asks.** -/
theorem FileEffect.asks {s s' : Store} {job : Job} {question : HookCall} {frame : Frame}
    {cpu : Sync.Cpu LockId} (h : FileEffect s job (.waiting question frame cpu) s') :
    frame.Asks question := by
  cases h with
  | closes hslot hquestion => exact hquestion
  | empties hjob hslot hopen hquestion hframe =>
      cases frame with
      | sweeping t purpose entry remaining next =>
          cases hframe
          exact hquestion
      | unwinding t entry rest =>
          cases hframe
          exact hquestion
      | _ => cases hframe
  | transfers => exact ⟨_, _, rfl⟩
  | opens hdriver => exact ⟨_, _, hdriver, rfl⟩
  | abandons => exact ⟨_, _, rfl⟩

/-- **What a job on mount tables asks.** -/
theorem MountEffect.asks_of_waiting {s s' : Store} {job : Job} {question : HookCall} {frame : Frame}
    {cpu : Sync.Cpu LockId} (h : MountEffect s job (.waiting question frame cpu) s') :
    frame.Asks question := by
  cases h with
  | asks hjob hframe =>
      cases frame with
      | probing v path device fs rest =>
          cases hframe
          exact ⟨_, _, rfl⟩
      | mounting v path device fs =>
          cases hframe
          exact ⟨_, _, rfl⟩
      | _ => cases hframe
  | undoes => exact ⟨_, _, rfl⟩
  | unmounts hfs => exact ⟨_, hfs, rfl⟩

namespace Happens

variable {past : List Moment} {now : Moment}

/-- **What a step asks** is what the call asks that it suspends. -/
theorem asks (h : Happens past now) {job : Job} {origin : Origin} {question : HookCall}
    {frame : Frame} {cpu : Sync.Cpu LockId}
    (c : Machine.Carried now.before now.event now.outcome now.after job origin
      (.waiting question frame cpu)) : frame.Asks question := by
  rcases h.effect c with hfile | hmount
  · exact hfile.asks
  · exact hmount.asks_of_waiting

/-- **Every step** leaves the questions of the suspended calls open, and no others. -/
theorem asking (h : Happens past now) (k : Asking now.questions now.before.stack) :
    Asking now.openQuestions now.after.stack := by
  rcases Machine.step_cases h.step with ⟨-, hrefused, hafter⟩ | ⟨job, origin, p, c⟩
  · rw [Moment.openQuestions, hrefused, hafter]
    exact k
  have hbelow : Asking now.below (now.before.below now.event) := Moment.forall₂_below k
  cases p with
  | finished result =>
      obtain ⟨hreturned, hstack⟩ := c.ends.of_finished
      rw [Moment.openQuestions, hreturned, hstack]
      exact hbelow
  | waiting question frame cpu =>
      obtain ⟨hasked, hstack⟩ := c.ends.of_waiting
      rw [Moment.openQuestions, hasked, hstack]
      exact .cons (h.asks c) hbelow

/-- **An answer** goes to the suspended call that has asked. -/
theorem answered (h : Happens past now) (k : Asking now.questions now.before.stack)
    {question : HookCall} {reply : Reply} (ha : now.answered? = some (question, reply)) :
    ∃ frame origin, now.before.job? now.event = some (.resume frame reply, origin) ∧
      frame.Asks question := by
  obtain ⟨⟨kernel, stack⟩, questions, event, outcome, after⟩ := now
  cases event with
  | reply answer =>
      have hne : outcome ≠ .refused := by
        rintro rfl
        cases ha
      obtain ⟨pending, rest, hstack, haccepts⟩ := Machine.accepts_of_step h.step hne
      dsimp only at k hstack haccepts
      subst hstack
      cases k with
      | @cons asked _ questions _ hasks _ =>
          have hanswer : asked = question ∧ answer = reply := by
            cases outcome <;> cases ha <;> exact ⟨rfl, rfl⟩
          obtain ⟨rfl, rfl⟩ := hanswer
          exact ⟨pending.frame, pending.origin, if_pos haccepts, hasks⟩
  | _ => cases outcome <;> cases ha

/-- A suspended call that goes on has the answer to its question. -/
theorem answers (k : Asking now.questions now.before.stack) {frame : Frame} {reply : Reply}
    {origin : Origin} {p : Progress} (c : Machine.Carried now.before now.event now.outcome now.after
      (.resume frame reply) origin p) :
    ∃ question, now.answered? = some (question, reply) ∧ frame.Asks question := by
  obtain ⟨⟨kernel, stack⟩, questions, event, outcome, after⟩ := now
  obtain ⟨rfl, hstack, -⟩ := Machine.stack_of_job c.sets
  dsimp only at k hstack
  rw [hstack] at k
  cases k with
  | @cons question _ _ _ hasks _ =>
      refine ⟨question, ?_, hasks⟩
      cases p with
      | finished result =>
          obtain ⟨rfl, -⟩ := c.ends.of_finished
          rfl
      | waiting question frame cpu =>
          obtain ⟨rfl, -⟩ := c.ends.of_waiting
          rfl

end Happens

/-- **What every step keeps** where open questions are those of suspended calls holds at every
moment of every run. -/
theorem Recalls.reached_asking {I : List Moment → Machine → Prop}
    (hstep : ∀ {past now}, Happens past now → Asking now.questions now.before.stack →
      I past now.before → I (past ++ [now]) now.after)
    (word enableMask : Sync.Word) (hI : I [] (.initial word enableMask)) (events : List Event) :
    ∃ moments, (Machine.initial word enableMask).trace [] events = .ok moments ∧
      ∀ past now future, moments = past ++ now :: future → Happens past now ∧
        Asking now.questions now.before.stack ∧ I past now.before ∧
        I (past ++ [now]) now.after := by
  obtain ⟨moments, htrace, hmoments⟩ := (Recalls.initial word enableMask).reached
    (I := fun past m questions => Asking questions m.stack ∧ I past m)
    (fun h k => ⟨h.asking k.1, hstep h k.1 k.2⟩) ⟨.nil, hI⟩ events
  refine ⟨moments, htrace, fun past now future he => ?_⟩
  obtain ⟨h, ⟨hasking, hbefore⟩, -, hafter⟩ := hmoments past now future he
  exact ⟨h, hasking, hbefore, hafter⟩

end VirtualFs
