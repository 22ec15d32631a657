import VirtualFs.Proofs.Kernel.Operations

/-!
# Processes call the file system

What a process calls is the same call on the file system, made on the current table by a caller
that takes results as they are: two runs of the kernel, one with the calls of processes and one
with the calls that they stand for (`Event.direct?`), go in lockstep.  At every step the drivers
are asked the same, files and mount tables are the same, and only the result differs, which a
process gets as a number (`ProcessOp.Reports`).

* `ProcessOp.reports_of_fits`: what a process is told.
* `Machine.Mirrors.step`: one step of the two runs.
* `Machine.Ready.misses`: a negative descriptor number asks for nothing.
* `processCalls_follow`: every run.
-/

namespace VirtualFs

/-! ### What a process calls -/

/-- The call on table `t` that a call of a process stands for: of the flags, only the bits for
reading and writing are left, and a negative descriptor number stands for no call. -/
def ProcessCall.direct? (t : TableId) : ProcessCall → Option Call
  | .open path flags mode => some (.open Process.globalVfs t path ⟨flags &&& 6⟩ mode)
  | .close fd => fd.toInt.toNat?.map (.close t ·)
  | .read fd length => fd.toInt.toNat?.map (.transfer t · (.read length))
  | .write fd data => fd.toInt.toNat?.map (.transfer t · (.write data))
  | .readdir fd => fd.toInt.toNat?.map (.transfer t · .readdir)
  | .control fd op argument => fd.toInt.toNat?.map (.transfer t · (.control op argument))

/-- The event with the call on the file system in the place of a process's. -/
def Event.direct? : Event → Option Event
  | .process current processCall =>
    (processCall.direct? (Process.currentTable current)).map .call
  | e => some e

namespace Process

theorem descriptor_eq (fd : Int32) : descriptor fd =
    match fd.toInt.toNat? with
    | some n => .ok n
    | none => .error .invalidArgument := by
  rw [descriptor]
  simp only [Int32.lt_iff_toInt_lt, Int32.toInt_zero]
  cases fd.toInt with
  | ofNat n => rfl
  | negSucc n => exact if_pos (Int.negSucc_lt_zero n)

/-- **What a process calls** is the call that it stands for, and fails where there is none. -/
theorem call_eq (t : TableId) (processCall : ProcessCall) : call t processCall =
    match processCall.direct? t with
    | some call => .ok call
    | none => .error .invalidArgument := by
  cases processCall with
  | «open» path flags mode => rfl
  | close fd | read fd | write fd | readdir fd | control fd =>
      simp only [call, ProcessCall.direct?, descriptor_eq]
      cases fd.toInt.toNat? <;> rfl

end Process

namespace ProcessCall

variable {t : TableId} {processCall : ProcessCall} {call : Call}

/-- The call carries out the operation that the process asks for. -/
theorem op?_of_direct (h : processCall.direct? t = some call) : call.op? = some processCall.op := by
  cases processCall with
  | «open» path flags mode =>
      cases h
      rfl
  | close fd | read fd | write fd | readdir fd | control fd =>
      obtain ⟨n, -, rfl⟩ := Option.map_eq_some_iff.mp h
      rfl

/-- It makes sense exactly where the table does. -/
theorem admits_of_direct (h : processCall.direct? t = some call) {m : Machine}
    (hv : m.kernel.store.hasVfs Process.globalVfs = true) :
    m.admits call = m.kernel.store.isReachable t := by
  cases processCall with
  | «open» path flags mode =>
      cases h
      rw [Machine.admits, hv, Bool.true_and]
  | close fd | read fd | write fd | readdir fd | control fd =>
      obtain ⟨n, -, rfl⟩ := Option.map_eq_some_iff.mp h
      rfl

end ProcessCall

/-! ### What a process is told -/

namespace ProcessOp

/-- **What a process is told** of a result: a number, the front of its buffer, and a directory entry
if it is given one. -/
inductive Reports : ProcessOp → Except Error Answer → Int → List UInt8 → Option DirEntry → Prop
  /-- Every failure is -1. -/
  | failed (op : ProcessOp) (e : Error) : Reports op (.error e) (-1) [] none
  /-- A descriptor number fits a signed word of 32 bits. -/
  | opened {fd : Nat} (hfd : fd ≤ Limits.maxCapacity) : Reports .open (.ok (.fd fd)) fd [] none
  | closed : Reports .close (.ok .done) 0 [] none
  | read {count : UInt64} {value : Int} (data : List UInt8)
      (hcount : count.toNat < 2 ^ 63 → value = count.toNat) :
      Reports .read (.ok (.moved count data)) value data none
  | written {count : UInt64} {value : Int} (hcount : count.toNat < 2 ^ 63 → value = count.toNat) :
      Reports .write (.ok (.moved count [])) value [] none
  | listed (entry : DirEntry) : Reports .readdir (.ok (.listed (.entry entry))) 1 [] (some entry)
  | ended : Reports .readdir (.ok (.listed .finished)) 0 [] none
  | controlled (value : Int64) : Reports .control (.ok (.controlled value)) value.toInt [] none

/-- A count that is small enough is its own signed word. -/
theorem toInt_toInt64 {count : UInt64} (h : count.toNat < 2 ^ 63) :
    count.toInt64.toInt = count.toNat := by
  have hlt : 2 * count.toBitVec.toNat < 2 ^ 64 := by
    have heq : count.toBitVec.toNat = count.toNat := rfl
    omega
  exact BitVec.toInt_eq_toNat_of_lt hlt

/-- **A process is told** what its operation comes to. -/
theorem reports_of_fits {op : ProcessOp} {result : Except Error Answer}
    (h : (Progress.finished result).Fits op) : ∃ value data entry,
      (Origin.process op).receives result = .ok (.returned value data entry) ∧
        op.Reports result value data entry := by
  cases result with
  | error e => exact ⟨_, _, _, rfl, .failed op e⟩
  | ok answer =>
      cases op with
      | «open» =>
          cases answer with
          | fd fd =>
              have hreturned : (Except.ok (Answer.fd fd)).bind Process.returned =
                  .ok (.returned fd [] none) := if_pos h
              refine ⟨fd, [], none, ?_, .opened h⟩
              rw [Origin.receives, hreturned]
          | _ => cases h
      | close =>
          cases answer with
          | done => exact ⟨_, _, _, rfl, .closed⟩
          | _ => cases h
      | read =>
          cases answer with
          | moved count data => exact ⟨_, _, _, rfl, .read data toInt_toInt64⟩
          | _ => cases h
      | write =>
          cases answer with
          | moved count data =>
              cases (h : data = [])
              exact ⟨_, _, _, rfl, .written toInt_toInt64⟩
          | _ => cases h
      | readdir =>
          cases answer with
          | listed next =>
              cases next with
              | entry entry => exact ⟨_, _, _, rfl, .listed entry⟩
              | finished => exact ⟨_, _, _, rfl, .ended⟩
          | _ => cases h
      | control =>
          cases answer with
          | controlled value => exact ⟨_, _, _, rfl, .controlled value⟩
          | _ => cases h

end ProcessOp

/-- What is told to the one who called, where the same call made directly ends with `outcome`. -/
inductive Origin.Tells : Origin → (outcome told : Outcome) → Prop
  | refused (origin : Origin) : Tells origin .refused .refused
  | asked (origin : Origin) (question : HookCall) : Tells origin (.asked question) (.asked question)
  | direct (result : Except Error Answer) : Tells .direct (.returned result) (.returned result)
  | process {op : ProcessOp} {result : Except Error Answer} {value : Int} {data : List UInt8}
      {entry : Option DirEntry} (h : op.Reports result value data entry) :
      Tells (.process op) (.returned result) (.returned (.ok (.returned value data entry)))

/-! ### Two runs -/

/-- A suspended call of a process, or of another caller, beside the same call made directly. -/
structure Pending.Mirrors (p d : Pending) : Prop where
  frame : p.frame = d.frame
  direct : d.origin = .direct
  op : ∀ op, p.origin = .process op → p.frame.op? = some op

namespace Machine

variable {m m' d : Machine} {e e' : Event} {outcome : Outcome}

/-- All is the same but who gets the results, and the journal. -/
structure Mirrors (m d : Machine) : Prop where
  store : m.kernel.store = d.kernel.store
  cpu : m.kernel.cpu = d.kernel.cpu
  stack : List.Forall₂ Pending.Mirrors m.stack d.stack

/-- Who gets the result of the call that an event begins or lets go on. -/
def caller (m : Machine) : Event → Origin
  | .call _ => .direct
  | .process _ call => .process call.op
  | .reply _ => (m.stack.head?.map (·.origin)).getD .direct

/-- Processes can call: the global file system is there. -/
structure Ready (m : Machine) : Prop where
  sound : ∃ H, m.Sound H
  bounded : m.kernel.store.Bounded
  hasVfs : m.kernel.store.hasVfs Process.globalVfs = true

/-- Every step leaves the machine so. -/
theorem Ready.step (r : m.Ready) (e : Event) :
    ∃ outcome m', m.step e = .ok (outcome, m') ∧ m'.Ready := by
  obtain ⟨H, h⟩ := r.sound
  obtain ⟨outcome, m', H', hstep, h'⟩ := h.exists_step e
  refine ⟨outcome, m', hstep, ?_⟩
  rcases step_cases hstep with ⟨-, -, rfl⟩ | ⟨job, origin, p, c⟩
  · exact r
  · obtain ⟨hbounded, hsize⟩ := c.ensures (h.ensures_bounded r.bounded c.sets)
    exact ⟨⟨H', h'⟩, hbounded,
      decide_eq_true (Nat.lt_of_lt_of_le (decide_eq_true_eq.mp r.hasVfs) hsize)⟩

theorem Mirrors.frames (h : m.Mirrors d) : m.stack.map (·.frame) = d.stack.map (·.frame) :=
  List.forall₂_eq_eq_eq ▸ List.forall₂_map_left_iff.mpr
    (List.forall₂_map_right_iff.mpr (h.stack.imp fun _ _ hp => hp.frame))

/-- The same calls make sense. -/
theorem Mirrors.admits (h : m.Mirrors d) (call : Call) : m.admits call = d.admits call := by
  have hused : ∀ t, m.isUsed t = d.isUsed t := by
    intro t
    have hany : ∀ m : Machine, m.isUsed t =
        (m.stack.map (·.frame)).any fun frame => frame.table? = some t := by
      intro m
      rw [isUsed, List.any_map]
      rfl
    rw [hany, hany, h.frames]
  cases call <;> simp only [Machine.admits, h.store, hused]

/-- **The same job** is set going, for the one who called and directly. -/
theorem Mirrors.job_cases (h : m.Mirrors d)
    (hv : m.kernel.store.hasVfs Process.globalVfs = true) (he : e.direct? = some e') :
    List.Forall₂ Pending.Mirrors (m.below e) (d.below e') ∧
    (m.job? e = none ∧ d.job? e' = none ∨
    ∃ job, m.job? e = some (job, m.caller e) ∧ d.job? e' = some (job, .direct) ∧
      ∀ op, m.caller e = .process op → job.op? = some op) := by
  cases e with
  | call call =>
      cases he
      refine ⟨h.stack, ?_⟩
      simp only [job?, h.admits call]
      cases d.admits call with
      | false => exact .inl ⟨rfl, rfl⟩
      | true => exact .inr ⟨.begin call, rfl, rfl, fun _ hop => by cases hop⟩
  | process current processCall =>
      obtain ⟨call, hcall, rfl⟩ := Option.map_eq_some_iff.mp he
      refine ⟨h.stack, ?_⟩
      have hadmits := ProcessCall.admits_of_direct hcall hv
      simp only [job?, Process.call_eq, hcall, hv, Bool.true_and, ← h.admits call, hadmits]
      cases m.kernel.store.isReachable (Process.currentTable current) with
      | false => exact .inl ⟨rfl, rfl⟩
      | true =>
          refine .inr ⟨.begin call, rfl, rfl, ?_⟩
          rintro op ⟨⟩
          exact ProcessCall.op?_of_direct hcall
  | reply reply =>
      cases he
      obtain ⟨kernel, stack⟩ := m
      obtain ⟨kernel', stack'⟩ := d
      obtain ⟨hstore, -, hstack⟩ := h
      cases hstack with
      | nil => exact ⟨.nil, .inl ⟨rfl, rfl⟩⟩
      | @cons p d rest rest' hp hrest =>
          refine ⟨hrest, ?_⟩
          dsimp only at hstore
          simp only [job?, hstore, hp.frame, hp.direct]
          cases accepts kernel'.store d.frame reply with
          | false => exact .inl ⟨rfl, rfl⟩
          | true =>
              refine .inr ⟨.resume d.frame reply, rfl, rfl, fun op hop => ?_⟩
              exact hp.frame ▸ hp.op op hop

/-- **One step of the two runs.** -/
theorem Mirrors.step (h : m.Mirrors d) (r : m.Ready) (he : e.direct? = some e')
    (hstep : m.step e = .ok (outcome, m')) : ∃ outcome' d', d.step e' = .ok (outcome', d') ∧
      m'.Mirrors d' ∧ (m.caller e).Tells outcome' outcome := by
  obtain ⟨H, hsound⟩ := r.sound
  obtain ⟨hbelow, hjobs⟩ := h.job_cases r.hasVfs he
  rw [step_eq] at hstep
  rw [step_eq]
  rcases hjobs with ⟨hm, hd⟩ | ⟨job, hm, hd, hop⟩
  · rw [hm] at hstep
    rw [hd]
    cases hstep
    exact ⟨_, _, rfl, h, .refused _⟩
  obtain ⟨p, s', hy, -⟩ := hsound.yields hm
  have hy' := hy
  rw [h.store, h.cpu] at hy'
  obtain ⟨journal, outcome, stack, hends, hrun⟩ := run_eq (m.caller e) (m.below e) hy
  obtain ⟨journal', outcome', stack', hends', hrun'⟩ := run_eq .direct (d.below e') hy'
  rw [hm] at hstep
  rw [hd]
  cases hrun.symm.trans hstep
  have hfits : ∀ op, m.caller e = .process op → p.Fits op := fun op hcaller =>
    hy.ensures (hsound.ensures_fits r.bounded hm (hop op hcaller))
  refine ⟨_, _, hrun', ?_⟩
  cases p with
  | finished result =>
      obtain ⟨rfl, rfl⟩ := hends.of_finished
      obtain ⟨rfl, rfl⟩ := hends'.of_finished
      refine ⟨⟨rfl, h.cpu, hbelow⟩, ?_⟩
      cases hcaller : m.caller e with
      | direct => exact .direct result
      | process op =>
          obtain ⟨value, data, entry, hreceives, hreports⟩ :=
            ProcessOp.reports_of_fits (hfits op hcaller)
          rw [hreceives]
          exact .process hreports
  | waiting question frame cpu =>
      obtain ⟨rfl, rfl⟩ := hends.of_waiting
      obtain ⟨rfl, rfl⟩ := hends'.of_waiting
      exact ⟨⟨rfl, rfl, .cons ⟨rfl, rfl, hfits⟩ hbelow⟩, .asked _ question⟩

/-- **A call that stands for none** asks nobody and changes nothing, and the process is told -1. -/
theorem Ready.misses (r : m.Ready) {current : Option TableId} {processCall : ProcessCall}
    (hnone : processCall.direct? (Process.currentTable current) = none)
    (hstep : m.step (.process current processCall) = .ok (outcome, m')) :
    (m'.kernel.store = m.kernel.store ∧ m'.kernel.cpu = m.kernel.cpu ∧ m'.stack = m.stack) ∧
      outcome = if m.kernel.store.isReachable (Process.currentTable current) then
        .returned (.ok (.returned (-1) [] none)) else .refused := by
  rw [step_eq] at hstep
  simp only [job?, Process.call_eq, hnone, r.hasVfs, Bool.true_and] at hstep
  generalize m.kernel.store.isReachable (Process.currentTable current) = reachable at hstep ⊢
  cases reachable with
  | false =>
      cases hstep
      exact ⟨⟨rfl, rfl, rfl⟩, rfl⟩
  | true =>
      have hy : (Job.reject .invalidArgument).action.Yields m.kernel.cpu m.kernel.store
          (.failed .invalidArgument) m.kernel.store := Action.yields_pure _
      obtain ⟨journal, outcome, stack, hends, hrun⟩ :=
        run_eq (.process processCall.op) m.stack hy
      cases hrun.symm.trans hstep
      obtain ⟨rfl, rfl⟩ := hends.of_finished
      exact ⟨⟨rfl, rfl, rfl⟩, rfl⟩

end Machine

/-! ### Runs -/

namespace Moment

/-- **A step beside the step of the other run**, with the calls made directly. -/
structure Follows (n direct : Moment) : Prop where
  event : n.event.direct? = some direct.event
  /-- The same questions are open. -/
  questions : n.questions = direct.questions
  before : n.before.Mirrors direct.before
  after : n.after.Mirrors direct.after
  /-- The same is asked, or the result is told. -/
  told : (n.before.caller n.event).Tells direct.outcome n.outcome
  /-- A process is told -1 for opening a file exactly if that fails. -/
  opened : n.before.caller n.event = .process .open → ∀ result, direct.outcome = .returned result →
    (n.outcome = .returned (.ok (.returned (-1) [] none)) ↔ ∃ e, result = .error e)

/-- **A step for a negative descriptor number**: nobody is asked and nothing but the journal
changes, and the process is told -1 unless its table cannot be named. -/
structure Misses (n : Moment) (current : Option TableId) : Prop where
  store : n.after.kernel.store = n.before.kernel.store
  cpu : n.after.kernel.cpu = n.before.kernel.cpu
  stack : n.after.stack = n.before.stack
  outcome : n.outcome = if n.before.kernel.store.isReachable (Process.currentTable current) then
    .returned (.ok (.returned (-1) [] none)) else .refused

variable {n direct : Moment}

/-- The same questions stay open. -/
theorem Follows.openQuestions (f : n.Follows direct) : n.openQuestions = direct.openQuestions := by
  have hbelow : n.below = direct.below := by
    have hevent := f.event
    rw [below, below, f.questions]
    cases hn : n.event with
    | process current processCall =>
        rw [hn] at hevent
        obtain ⟨call, -, hcall⟩ := Option.map_eq_some_iff.mp hevent
        rw [← hcall]
    | call call =>
        rw [hn] at hevent
        rw [← Option.some.inj hevent]
    | reply reply =>
        rw [hn] at hevent
        rw [← Option.some.inj hevent]
  have htold := f.told
  rw [Moment.openQuestions, Moment.openQuestions]
  generalize n.before.caller n.event = origin, n.outcome = told, direct.outcome = outcome at htold ⊢
  cases htold with
  | refused => exact f.questions
  | asked origin question => exact congrArg (question :: ·) hbelow
  | direct result => exact hbelow
  | process h => exact hbelow

/-- A step for a negative descriptor number leaves the same questions open. -/
theorem Misses.openQuestions {current : Option TableId} {processCall : ProcessCall}
    (h : n.Misses current) (he : n.event = .process current processCall) :
    n.openQuestions = n.questions := by
  rw [Moment.openQuestions, h.outcome, below, he]
  cases n.before.kernel.store.isReachable (Process.currentTable current) <;> rfl

end Moment

/-- A process is told -1 for opening a file exactly if that fails. -/
theorem Origin.Tells.opened {origin : Origin} {outcome told : Outcome}
    (h : origin.Tells outcome told) (ho : origin = .process .open) {result : Except Error Answer}
    (hr : outcome = .returned result) :
    told = .returned (.ok (.returned (-1) [] none)) ↔ ∃ e, result = .error e := by
  cases h with
  | refused | asked => cases hr
  | direct => cases ho
  | process hreports =>
      cases ho
      cases hr
      cases hreports with
      | failed op e => exact iff_of_true rfl ⟨e, rfl⟩
      | @opened fd hfd =>
          refine iff_of_false (fun he => ?_) nofun
          injection he with he
          injection he with he
          injection he with he
          exact absurd he (by omega)

namespace Machine

variable {m d : Machine}

/-- **The two runs**, by induction on the events. -/
theorem Mirrors.trace (h : m.Mirrors d) (r : m.Ready) (questions : List HookCall)
    (events : List Event) :
    ∃ moments direct, m.trace questions events = .ok moments ∧
      d.trace questions (events.filterMap Event.direct?) = .ok direct ∧
      moments.map (·.event) = events ∧
      List.Forall₂ Moment.Follows (moments.filter (·.event.direct?.isSome)) direct ∧
      ∀ n ∈ moments, n.after.kernel.store.Bounded ∧ ∀ current call,
        n.event = .process current call → call.direct? (Process.currentTable current) = none →
          n.Misses current := by
  induction events generalizing m d questions with
  | nil => exact ⟨[], [], rfl, rfl, rfl, .nil, fun n hn => by cases hn⟩
  | cons e events ih =>
      obtain ⟨outcome, m', hstep, r'⟩ := r.step e
      let n : Moment := ⟨m, questions, e, outcome, m'⟩
      have hmisses : ∀ current call, e = .process current call →
          call.direct? (Process.currentTable current) = none → n.Misses current := by
        rintro current call rfl hnone
        obtain ⟨⟨hstore, hcpu, hstack⟩, houtcome⟩ := r.misses hnone hstep
        exact ⟨hstore, hcpu, hstack, houtcome⟩
      cases he : e.direct? with
      | none =>
          -- the run with the calls made directly has no such step
          obtain ⟨current, call, rfl, hnone⟩ : ∃ current call, e = .process current call ∧
              call.direct? (Process.currentTable current) = none := by
            cases e with
            | process current call => exact ⟨current, call, rfl, Option.map_eq_none_iff.mp he⟩
            | _ => cases he
          have hn := hmisses current call rfl hnone
          have h' : m'.Mirrors d :=
            ⟨hn.store.trans h.store, hn.cpu.trans h.cpu, hn.stack ▸ h.stack⟩
          obtain ⟨moments, direct, htrace, hdirect, hevents, hfollows, hall⟩ := ih h' r' questions
          have htrace' : m'.trace n.openQuestions events = .ok moments := by
            rw [hn.openQuestions rfl]
            exact htrace
          refine ⟨n :: moments, direct, trace_cons hstep htrace', ?_, congrArg (_ :: ·) hevents, ?_,
            List.forall_mem_cons.mpr ⟨⟨r'.bounded, hmisses⟩, hall⟩⟩
          · rw [List.filterMap_cons_none he]
            exact hdirect
          · rw [List.filter_cons_of_neg (by simp [n, he])]
            exact hfollows
      | some e' =>
          obtain ⟨outcome', d', hstep', h', htold⟩ := h.step r he hstep
          let direct : Moment := ⟨d, questions, e', outcome', d'⟩
          have hfollows : n.Follows direct :=
            ⟨he, rfl, h, h', htold, fun ho _ hr => htold.opened ho hr⟩
          obtain ⟨moments, directs, htrace, hdirect, hevents, hall₂, hall⟩ :=
            ih h' r' n.openQuestions
          refine ⟨n :: moments, direct :: directs, trace_cons hstep htrace, ?_,
            congrArg (_ :: ·) hevents, ?_, List.forall_mem_cons.mpr ⟨⟨r'.bounded, hmisses⟩, hall⟩⟩
          · rw [List.filterMap_cons_some he]
            exact trace_cons hstep' (hfollows.openQuestions ▸ hdirect)
          · rw [List.filter_cons_of_pos (by simp [n, he])]
            exact .cons hfollows hall₂

/-- The machine with the global file system made, and nothing else. -/
def started (word enableMask : Sync.Word) (limit : Nat) : Machine :=
  ⟨⟨Store.initial.withNewVfs limit, ⟨word, enableMask, []⟩, []⟩, []⟩

theorem step_initial (word enableMask : Sync.Word) (limit : Nat) :
    (initial word enableMask).step (.call (.createVfs limit)) =
      .ok (.returned (.ok (.vfs Process.globalVfs)), started word enableMask limit) :=
  rfl

theorem ready_started (word enableMask : Sync.Word) (limit : Nat) :
    (started word enableMask limit).Ready := by
  obtain ⟨outcome, m, H, hstep, h⟩ :=
    (sound_initial word enableMask).exists_step (.call (.createVfs limit))
  cases (step_initial word enableMask limit).symm.trans hstep
  refine ⟨⟨H, h⟩, fun t st ht => ?_, rfl⟩
  rw [tableState?_initial (t := t) ht]
  decide

end Machine

/-- **Calls of processes are calls on the file system**: in every run that begins with the global
file system, each call of a process asks the drivers and changes files and mount tables as the same
call on the current table does, and the process is told what becomes of it.  A negative descriptor
number asks nobody and changes nothing; and at every moment all descriptor numbers fit a signed word
of 32 bits. -/
theorem processCalls_follow (word enableMask : Sync.Word) (limit : Nat) (events : List Event) :
    ∃ moments direct,
      (Machine.initial word enableMask).trace [] (.call (.createVfs limit) :: events) =
        .ok moments ∧
      (Machine.initial word enableMask).trace []
        (.call (.createVfs limit) :: events.filterMap Event.direct?) = .ok direct ∧
      moments.map (·.event) = .call (.createVfs limit) :: events ∧
      List.Forall₂ Moment.Follows (moments.filter (·.event.direct?.isSome)) direct ∧
      ∀ n ∈ moments, n.after.kernel.store.Bounded ∧ ∀ current call,
        n.event = .process current call → call.direct? (Process.currentTable current) = none →
          n.Misses current := by
  have r := Machine.ready_started word enableMask limit
  have hstep := Machine.step_initial word enableMask limit
  have hmirrors : ∀ m : Machine, m.stack = [] → m.Mirrors m := fun m hm =>
    ⟨rfl, rfl, hm ▸ .nil⟩
  obtain ⟨moments, direct, htrace, hdirect, hevents, hfollows, hall⟩ :=
    (hmirrors _ rfl).trace r [] events
  refine ⟨_, _, Machine.trace_cons hstep htrace, Machine.trace_cons hstep hdirect,
    congrArg (_ :: ·) hevents, .cons ?_ hfollows,
    List.forall_mem_cons.mpr ⟨⟨r.bounded, nofun⟩, hall⟩⟩
  exact ⟨rfl, rfl, hmirrors _ rfl, hmirrors _ rfl, .direct _, nofun⟩

/-- A process without a table of its own: every flag bit is set, one descriptor number is negative,
and one is that of a free slot. -/
example : (do
    let moments ← (Machine.initial 0 0).trace [] [.call (.createVfs 4),
      .call (.register 0 "/m".toList (.external ⟨0, "ram"⟩) none),
      .process none (.open "/m/f".toList 0xFFFFFFFF 0), .reply .opened,
      .process none (.read (-1) 8), .process none (.read 0 8), .reply (.moved 2 [5, 7]),
      .process none (.readdir 0), .reply (.listed .finished), .process none (.close 1)]
    return (moments.drop 2).map fun n : Moment => n.outcome) =
    .ok [.asked (.open ⟨0, "ram"⟩ "f".toList ⟨6⟩ 0), .returned (.ok (.returned 0 [] none)),
      .returned (.ok (.returned (-1) [] none)), .asked (.read ⟨0, "ram"⟩ (.external 0) 8),
      .returned (.ok (.returned 2 [5, 7] none)), .asked (.readdir ⟨0, "ram"⟩ (.external 0)),
      .returned (.ok (.returned 0 [] none)), .returned (.ok (.returned (-1) [] none))] := by
  cbv

end VirtualFs
