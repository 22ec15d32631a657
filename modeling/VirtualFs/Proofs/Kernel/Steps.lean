import VirtualFs.Proofs.Kernel.Ensures
import VirtualFs.Proofs.Kernel.Runs

/-!
# What a step carries out

An event that is not refused sets one `Job` going: a call begins, or the last suspended call goes
on.  Everything that can be said of a step is said of its job, and everything that can be said of a
run is an invariant that each job keeps.

* `Machine.step_eq`: a step runs its job.
* `Machine.run_eq`, `Sound.yields`: what a job comes to, and with it its step.
* `Carried`, `step_cases`: what the job's end tells of the machine after it.
* `Recalls.reached`: what every step keeps holds at every moment of every run.
-/

namespace VirtualFs

deriving instance DecidableEq for Outcome

/-- What a step of the machine carries out. -/
inductive Job where
  | begin (call : Call)
  /-- A call of a process that fails before it begins. -/
  | reject (error : Error)
  | resume (frame : Frame) (reply : Reply)
deriving DecidableEq

/-- The job as an action. -/
def Job.action : Job → Action Progress
  | .begin call => Action.perform call
  | .reject error => return .failed error
  | .resume frame reply => Action.resume frame reply

/-- What the origin of a call gets for a result. -/
def Origin.receives : Origin → Except Error Answer → Except Error Answer
  | .direct, result => result
  | .process _, result =>
    match result.bind Process.returned with
    | .ok answer => .ok answer
    | .error _ => .ok (.returned (-1) [] none)

namespace Progress

/-- How a job that has come so far ends its step, over the calls in `rest`. -/
inductive Ends (origin : Origin) (rest : List Pending) :
    Progress → Outcome → List Pending → Prop
  | finished (result : Except Error Answer) :
      Ends origin rest (.finished result) (.returned (origin.receives result)) rest
  | waiting (question : HookCall) (frame : Frame) (cpu : Sync.Cpu LockId) :
      Ends origin rest (.waiting question frame cpu) (.asked question) (⟨frame, origin⟩ :: rest)

namespace Ends

variable {origin : Origin} {rest stack : List Pending} {outcome : Outcome}

theorem of_finished {result : Except Error Answer}
    (h : (Progress.finished result).Ends origin rest outcome stack) :
    outcome = .returned (origin.receives result) ∧ stack = rest := by
  cases h
  exact ⟨rfl, rfl⟩

theorem of_waiting {question : HookCall} {frame : Frame} {cpu : Sync.Cpu LockId}
    (h : (Progress.waiting question frame cpu).Ends origin rest outcome stack) :
    outcome = .asked question ∧ stack = ⟨frame, origin⟩ :: rest := by
  cases h
  exact ⟨rfl, rfl⟩

end Ends

end Progress

namespace Machine

variable {m m' : Machine} {e : Event} {outcome : Outcome}

/-- The job that an event sets going, and for whom; none if it is refused. -/
def job? (m : Machine) : Event → Option (Job × Origin)
  | .call call => if m.admits call then some (.begin call, .direct) else none
  | .process current call =>
    let t := Process.currentTable current
    if m.kernel.store.hasVfs Process.globalVfs && m.kernel.store.isReachable t then
      match Process.call t call with
      | .ok begun => some (.begin begun, .process call.op)
      | .error e => some (.reject e, .process call.op)
    else none
  | .reply reply =>
    match m.stack with
    | [] => none
    | pending :: _ =>
      if accepts m.kernel.store pending.frame reply then
        some (.resume pending.frame reply, pending.origin)
      else none

/-- **A step runs its job.** -/
theorem step_eq (m : Machine) (e : Event) : m.step e =
    match m.job? e with
    | none => .ok (.refused, m)
    | some (job, origin) => run m.kernel (m.below e) origin job.action := by
  cases e with
  | call call =>
      simp only [step, job?]
      split <;> rfl
  | process current call =>
      simp only [step, job?]
      split
      · cases Process.call (Process.currentTable current) call <;> rfl
      · rfl
  | reply reply =>
      obtain ⟨kernel, stack⟩ := m
      cases stack with
      | nil => rfl
      | cons pending rest =>
          simp only [step, job?]
          split <;> rfl

/-- What a job begins makes sense. -/
theorem admits_of_job {call : Call} {origin : Origin} (h : m.job? e = some (.begin call, origin)) :
    m.admits call = true := by
  cases e with
  | call call' =>
      simp only [job?] at h
      split at h
      · rename_i ha
        cases h
        exact ha
      · cases h
  | process current processCall =>
      simp only [job?] at h
      split at h
      · rename_i ha
        obtain ⟨hv, hr⟩ := Bool.and_eq_true_iff.mp ha
        cases hcall : Process.call (Process.currentTable current) processCall with
        | ok begun =>
            rw [hcall] at h
            cases h
            exact Sound.admits_process hv hr hcall
        | error e =>
            rw [hcall] at h
            cases h
      · cases h
  | reply reply =>
      obtain ⟨kernel, stack⟩ := m
      cases stack with
      | nil => cases h
      | cons pending rest =>
          simp only [job?] at h
          split at h <;> cases h

/-- What a job goes on with was the last suspended call, and the answer is one to it. -/
theorem stack_of_job {frame : Frame} {reply : Reply} {origin : Origin}
    (h : m.job? e = some (.resume frame reply, origin)) : e = .reply reply ∧
      m.stack = ⟨frame, origin⟩ :: m.below e ∧ accepts m.kernel.store frame reply = true := by
  cases e with
  | call call =>
      simp only [job?] at h
      split at h <;> cases h
  | process current processCall =>
      simp only [job?] at h
      split at h
      · cases hcall : Process.call (Process.currentTable current) processCall <;>
          rw [hcall] at h <;> cases h
      · cases h
  | reply reply' =>
      obtain ⟨kernel, stack⟩ := m
      cases stack with
      | nil => cases h
      | cons pending rest =>
          simp only [job?] at h
          split at h
          · rename_i ha
            cases h
            exact ⟨rfl, rfl, ha⟩
          · cases h

/-- A job that begins leaves all suspended calls where they are. -/
theorem below_of_job {job : Job} {origin : Origin} (h : m.job? e = some (job, origin))
    (hjob : ∀ frame reply, job ≠ .resume frame reply) : m.below e = m.stack := by
  cases e with
  | reply reply =>
      obtain ⟨kernel, stack⟩ := m
      cases stack with
      | nil => cases h
      | cons pending rest =>
          simp only [job?] at h
          split at h
          · cases h
            exact absurd rfl (hjob _ _)
          · cases h
  | _ => rfl

/-- **What a step has carried out**, and what that tells of the machine after it. -/
structure Carried (m : Machine) (e : Event) (outcome : Outcome) (m' : Machine) (job : Job)
    (origin : Origin) (p : Progress) : Prop where
  sets : m.job? e = some (job, origin)
  ends : p.Ends origin (m.below e) outcome m'.stack
  ensures : ∀ {Q}, job.action.Ensures m.kernel.store Q → Q p m'.kernel.store

/-- What a process gets changes nothing. -/
theorem deliver_eq {op : ProcessOp} {result : Except Error Answer} {kernel k : Kernel}
    {answer : Answer} (h : Process.deliver op result kernel = .ok (answer, k)) :
    k.store = kernel.store ∧ (Origin.process op).receives result = .ok answer := by
  rw [Process.deliver] at h
  rw [Origin.receives]
  cases hr : result.bind Process.returned with
  | ok a =>
      rw [hr] at h
      cases h
      exact ⟨rfl, rfl⟩
  | error e =>
      rw [hr] at h
      cases h
      exact ⟨rfl, rfl⟩

/-- **What an action comes to** is what its step comes to, with the processor that a question was
put with; the journal is left open. -/
theorem run_eq {kernel : Kernel} {act : Action Progress} {p : Progress} {s' : Store}
    (origin : Origin) (rest : List Pending) (h : act.Yields kernel.cpu kernel.store p s') :
    ∃ journal outcome stack, p.Ends origin rest outcome stack ∧
      run kernel rest origin act = .ok (outcome, ⟨⟨s', p.cpu kernel.cpu, journal⟩, stack⟩) := by
  cases p with
  | waiting question frame cpu =>
      obtain ⟨journal, hrun⟩ := run_asked origin h
      exact ⟨journal, _, _, .waiting question frame cpu, hrun⟩
  | finished result =>
      cases origin with
      | direct =>
          obtain ⟨journal, hrun⟩ := run_direct h
          exact ⟨journal, _, _, .finished result, hrun⟩
      | process op =>
          obtain ⟨journal, h⟩ := h kernel.journal
          obtain ⟨answer, hdeliver⟩ := Process.yields_deliver kernel.cpu s' op result
          obtain ⟨journal', hdeliver⟩ := hdeliver journal
          refine ⟨journal', _, _, .finished result, ?_⟩
          rw [run, show kernel = ⟨kernel.store, kernel.cpu, kernel.journal⟩ from rfl, h,
            (deliver_eq hdeliver).2]
          simp only [bind, Except.bind, hdeliver]
          rfl

/-- **A job that is set going** is no fault, leaves the locks and the interrupt word as they were,
and puts its question with them as they were. -/
theorem Sound.yields {H : History} (h : m.Sound H) {job : Job} {origin : Origin}
    (hjob : m.job? e = some (job, origin)) :
    ∃ p s', job.action.Yields m.kernel.cpu m.kernel.store p s' ∧
      p.cpu m.kernel.cpu = m.kernel.cpu := by
  cases job with
  | begin call =>
      obtain ⟨p, s', hy, hcpu, -⟩ :=
        Action.lands_perform h.books h.served h.unlocked (admits_of_job hjob)
      exact ⟨p, s', hy, hcpu⟩
  | reject error => exact ⟨_, _, Action.yields_pure _, rfl⟩
  | resume frame reply =>
      obtain ⟨-, hstack, ha⟩ := stack_of_job hjob
      obtain ⟨kernel, stack⟩ := m
      generalize Machine.below _ e = rest at hstack
      dsimp only at hstack
      subst hstack
      have hbooks := h.books
      rw [closings_cons] at hbooks
      obtain ⟨p, s', hy, hcpu, -⟩ := Action.lands_resume hbooks h.served h.unlocked
        (h.valid _ List.mem_cons_self) ha
      exact ⟨p, s', hy, hcpu⟩

/-- **Every event** is refused and changes nothing, or its job has been carried out. -/
theorem step_cases (h : m.step e = .ok (outcome, m')) :
    (m.job? e = none ∧ outcome = .refused ∧ m' = m) ∨
    ∃ job origin p, Carried m e outcome m' job origin p := by
  rw [step_eq] at h
  cases hjob : m.job? e with
  | none =>
      rw [hjob] at h
      cases h
      exact .inl ⟨rfl, rfl, rfl⟩
  | some found =>
      refine .inr ?_
      obtain ⟨job, origin⟩ := found
      rw [hjob] at h
      obtain ⟨⟨p, k⟩, hact, hend⟩ := Checked.exists_of_bind h
      have hensures : ∀ {Q}, job.action.Ensures m.kernel.store Q → Q p k.store := fun hQ =>
        hQ m.kernel p k rfl hact
      refine ⟨job, origin, p, ?_⟩
      cases p with
      | waiting question frame cpu =>
          cases hend
          exact ⟨hjob, .waiting question frame cpu, hensures⟩
      | finished result =>
          cases origin with
          | direct =>
              cases hend
              exact ⟨hjob, .finished result, hensures⟩
          | process op =>
              obtain ⟨⟨answer, k'⟩, hdeliver, hend⟩ := Checked.exists_of_bind hend
              cases hend
              obtain ⟨hstore, hreceives⟩ := deliver_eq hdeliver
              refine ⟨hjob, ?_, fun hQ => ?_⟩
              · rw [← hreceives]
                exact .finished result
              · rw [hstore]
                exact hensures hQ

end Machine

/-! ### Runs -/

/-- One moment of a run after those of the past: a step that is no fault, between machines of which
the books say what is so. -/
structure Happens (past : List Moment) (now : Moment) : Prop where
  before : ∃ H, Recalls H past now.before now.questions
  step : now.before.step now.event = .ok (now.outcome, now.after)
  after : ∃ H, Recalls H (past ++ [now]) now.after now.openQuestions

namespace Happens

variable {past : List Moment} {now : Moment}

/-- **Whatever comes next** is no fault either. -/
theorem next (h : Happens past now) (e : Event) : ∃ outcome m,
    Happens (past ++ [now]) ⟨now.after, now.openQuestions, e, outcome, m⟩ := by
  obtain ⟨H, r⟩ := h.after
  obtain ⟨outcome, m, hstep, -, H', r'⟩ := r.step e
  exact ⟨outcome, m, ⟨H, r⟩, hstep, ⟨H', r'⟩⟩

/-- The job of a step is carried out. -/
theorem carried (h : Happens past now) {job : Job} {origin : Origin}
    (hjob : now.before.job? now.event = some (job, origin)) : ∃ p,
      Machine.Carried now.before now.event now.outcome now.after job origin p := by
  rcases Machine.step_cases h.step with ⟨hnone, -, -⟩ | ⟨job, origin, p, c⟩
  · cases hjob.symm.trans hnone
  · cases hjob.symm.trans c.sets
    exact ⟨p, c⟩

/-- What a job comes to is what its step comes to. -/
theorem of_yields (h : Happens past now) {job : Job} {origin : Origin} {p : Progress} {s' : Store}
    (hjob : now.before.job? now.event = some (job, origin))
    (hy : job.action.Yields now.before.kernel.cpu now.before.kernel.store p s') :
    p.Ends origin (now.before.below now.event) now.outcome now.after.stack ∧
      now.after.kernel.store = s' := by
  obtain ⟨journal, outcome, stack, hends, hrun⟩ :=
    Machine.run_eq origin (now.before.below now.event) hy
  have hstep := h.step
  rw [Machine.step_eq, hjob] at hstep
  obtain ⟨rfl, hafter⟩ := Prod.mk.inj (Except.ok.inj (hstep.symm.trans hrun))
  rw [hafter]
  exact ⟨hends, rfl⟩

/-- A call from outside is carried out as it stands, if it makes sense. -/
theorem carries (h : Happens past now) {call : Call} (he : now.event = .call call)
    (ha : now.before.admits call = true) : ∃ p, Machine.Carried now.before now.event now.outcome
      now.after (.begin call) .direct p :=
  h.carried (by rw [he, Machine.job?, if_pos ha])

/-- A call that is not refused made sense. -/
theorem admits_of_taken (h : Happens past now) {call : Call} (he : now.event = .call call)
    (htaken : now.outcome ≠ .refused) : now.before.admits call = true := by
  rcases Machine.step_cases h.step with ⟨-, hrefused, -⟩ | ⟨job, origin, p, c⟩
  · exact absurd hrefused htaken
  have hsets := c.sets
  rw [he, Machine.job?] at hsets
  split at hsets
  · assumption
  · cases hsets

/-- A call that returns something made sense. -/
theorem admits (h : Happens past now) {call : Call} {result : Except Error Answer}
    (he : now.event = .call call) (ho : now.outcome = .returned result) :
    now.before.admits call = true :=
  h.admits_of_taken he (by rw [ho]; nofun)

/-- What is asked is asked by the job of the step. -/
theorem waits {question : HookCall} (h : Happens past now)
    (hasked : now.outcome = .asked question) :
    ∃ job origin frame cpu, Machine.Carried now.before now.event now.outcome now.after job origin
      (.waiting question frame cpu) := by
  rcases Machine.step_cases h.step with ⟨-, hrefused, -⟩ | ⟨job, origin, p, c⟩
  · cases hasked.symm.trans hrefused
  cases p with
  | finished result => cases hasked.symm.trans c.ends.of_finished.1
  | waiting question' frame cpu =>
      cases hasked.symm.trans c.ends.of_waiting.1
      exact ⟨job, origin, frame, cpu, c⟩

end Happens

/-- **What every step keeps** holds before and after every moment of every run. -/
theorem Recalls.reached {I : List Moment → Machine → List HookCall → Prop}
    (hstep : ∀ {past now}, Happens past now → I past now.before now.questions →
      I (past ++ [now]) now.after now.openQuestions)
    {H : History} {past : List Moment} {m : Machine} {questions : List HookCall}
    (r : Recalls H past m questions) (hI : I past m questions) (events : List Event) :
    ∃ moments, m.trace questions events = .ok moments ∧
      ∀ before now after, moments = before ++ now :: after → Happens (past ++ before) now ∧
        I (past ++ before) now.before now.questions ∧
        I (past ++ before ++ [now]) now.after now.openQuestions := by
  induction events generalizing H past m questions with
  | nil => exact ⟨[], rfl, fun before now after h => by simp at h⟩
  | cons e events ih =>
      obtain ⟨outcome, m', hrun, -, H', r'⟩ := r.step e
      have happens : Happens past ⟨m, questions, e, outcome, m'⟩ := ⟨⟨H, r⟩, hrun, ⟨H', r'⟩⟩
      have hI' := hstep happens hI
      obtain ⟨moments, htrace, hmoments⟩ := ih r' hI'
      exact ⟨⟨m, questions, e, outcome, m'⟩ :: moments, Machine.trace_cons hrun htrace,
        Moment.forall_cons (P := fun past now => Happens past now ∧
          I past now.before now.questions ∧ I (past ++ [now]) now.after now.openQuestions)
          ⟨happens, hI, hI'⟩ hmoments⟩

end VirtualFs
