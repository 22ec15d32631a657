import VirtualFs.Proofs.Kernel.Calls

/-!
# Between two steps

Between two steps of the machine no lock is held, the books on open files agree, the mount tables
are in order, and every suspended call finds what it relies on (`Sound`).  A step keeps this,
whatever the event is; calls that come in while a question is open can disturb no suspended call,
since a table can only be let go while none works on it.

* `sound_initial`: the machine starts so.
* `run_of_lands`: an action that lands makes a step.
* `Sound.step`: every event is refused or makes a step, and none is a fault.
-/

namespace VirtualFs

namespace Frame

variable {s : Store} {frame : Frame} {t : TableId}

/-- The table that a call lets go is the one that it works on. -/
theorem table?_of_dropped? (h : frame.dropped? = some t) : frame.table? = some t := by
  cases frame with
  | sweeping u purpose entry remaining next =>
      cases purpose with
      | destroy => cases h
      | drop => exact h
  | _ => cases h

/-- Nothing reaches a table that is let go. -/
theorem Valid.unreachable (hv : frame.Valid s) (h : frame.dropped? = some t) :
    ∃ st, s.tableState? t = some st ∧ st.reachable = false := by
  cases frame with
  | sweeping u purpose entry remaining next =>
      cases purpose with
      | destroy => cases h
      | drop =>
          cases h
          obtain ⟨st, ht, -, hr, -⟩ := hv
          exact ⟨st, ht, hr⟩
  | _ => cases h

end Frame

/-- The handle that a driver is asked to close at the end of a step. -/
def Outcome.closes? : Outcome → Option Handle
  | .asked question => question.closes?
  | _ => none

/-- Nothing has happened yet. -/
def History.empty : History :=
  ⟨fun _ => False, fun _ => False, fun _ => False, fun _ => False⟩

namespace Machine

variable {H : History} {m : Machine}

/-- No lock is held, the books agree, mount tables are in order, and suspended calls find what they
rely on. -/
structure Sound (H : History) (m : Machine) : Prop where
  unlocked : m.kernel.cpu.held = []
  served : m.kernel.store.Served
  books : Books H m.closings m.kernel.store
  valid : ∀ p ∈ m.stack, p.frame.Valid m.kernel.store
  /-- No two calls let the same table go. -/
  dropped : (m.stack.filterMap (·.frame.dropped?)).Nodup

/-! ### The beginning -/

theorem tableState?_initial {t : TableId} {st : TableState}
    (h : Store.initial.tableState? t = some st) :
    st = ⟨FdTable.ofCapacity Limits.defaultMaxFds, true⟩ := by
  have ht := Store.tables_of_tableState? h
  cases t with
  | zero => exact (Option.some.inj (Option.some.inj ht)).symm
  | succ t => cases ht

/-- Every slot is free at first. -/
theorem slot?_initial {t : TableId} {fd : Nat} {slot : Slot}
    (h : Store.initial.slot? t fd = some slot) : slot = .free := by
  obtain ⟨st, ht, hslot⟩ := Option.bind_eq_some_iff.mp h
  rw [tableState?_initial ht, FdTable.ofCapacity, Array.getElem?_replicate] at hslot
  split at hslot
  · exact (Option.some.inj hslot).symm
  · cases hslot

theorem opens_initial (d : Descriptor) : Store.initial.opens d = 0 := by
  refine Nat.eq_zero_of_not_pos ?_
  intro hpos
  obtain ⟨t, fd, entry, hslot, -⟩ := Store.opens_pos_iff.mp hpos
  cases slot?_initial hslot

/-- Before anything happens there is nothing in the books. -/
theorem books_initial : Books .empty [] Store.initial where
  regular h := tableState?_initial h ▸ FdTable.regular_ofCapacity _
  closing t fd := by
    constructor
    · intro h
      cases slot?_initial h
    · rintro ⟨c, hc, -⟩
      cases hc
  places := .nil
  distinct := .nil
  idle c hc := by cases hc
  opened h := absurd (opens_initial _) (Nat.ne_of_gt h)
  counted h := h.elim
  numbered h := h.elim
  serves h := h.elim
  ids h := h.elim
  handles h := h.elim
  given h := h.elim
  accounted h := h.elim
  spent h := h.elim

/-- **The machine starts sound.** -/
theorem sound_initial (word enableMask : Sync.Word) : (initial word enableMask).Sound .empty where
  unlocked := rfl
  served := {
    graphs := fun h => absurd h (by simp [initial, Store.initial])
    directories := fun h => absurd h (by simp [initial, Store.initial]) }
  books := books_initial
  valid p hp := by cases hp
  dropped := .nil

/-! ### One step -/

/-- What a step does to the suspended calls: a call that returned is gone, and one that asked has
come on top of the others. -/
inductive Suspends (H H' : History) (rest : List Pending) : Outcome → List Pending → Prop
  | returned (result : Except Error Answer) : Suspends H H' rest (.returned result) rest
  | asked {question : HookCall} {pending : Pending} (h : pending.frame.Puts H H' question) :
      Suspends H H' rest (.asked question) (pending :: rest)

/-- What a step leaves over the suspended calls in `rest`. -/
structure Advance (H : History) (rest : List Pending) (outcome : Outcome) (m : Machine)
    (H' : History) : Prop where
  sound : m.Sound H'
  leads : H.Leads outcome.closes? H'
  suspends : Suspends H H' rest outcome m.stack

theorem closings_cons (kernel : Kernel) (pending : Pending) (rest : List Pending) :
    closings ⟨kernel, pending :: rest⟩ =
      pending.frame.closing?.toList ++ closings ⟨kernel, rest⟩ := by
  rw [closings, closings, List.filterMap_cons]
  cases pending.frame.closing? <;> rfl

/-- **An action that lands makes a step**, if no suspended call works on the table that it lets
go. -/
theorem run_of_lands {kernel : Kernel} {rest : List Pending} {act : Action Progress}
    {except : Option TableId} (origin : Origin)
    (h : act.Lands kernel.cpu H (closings ⟨kernel, rest⟩) except kernel.store)
    (hcpu : kernel.cpu.held = []) (hv : ∀ p ∈ rest, p.frame.Valid kernel.store)
    (hdropped : (rest.filterMap (·.frame.dropped?)).Nodup)
    (hexcept : ∀ p ∈ rest, ∀ {t}, p.frame.table? = some t → (∃ st,
      kernel.store.tableState? t = some st ∧ (st.reachable = true ∨ p.frame.dropped? = some t)) →
      except ≠ some t) :
    ∃ outcome m H', run kernel rest origin act = .ok (outcome, m) ∧
      Advance H rest outcome m H' := by
  obtain ⟨p, s', hy, hput, ⟨H', hleads, hbooks, hputs⟩, hserved, hspares, hwaits⟩ := h
  have hvalid : ∀ p ∈ rest, p.frame.Valid s' := fun p hp => (hv p hp).spares hspares (hexcept p hp)
  cases p with
  | finished result =>
      obtain ⟨journal, result', hrun⟩ := run_returned origin hy
      exact ⟨_, _, H', hrun, ⟨hcpu, hserved, hbooks, hvalid, hdropped⟩, hleads, .returned _⟩
  | waiting question frame cpu =>
      obtain ⟨journal, hrun⟩ := run_asked origin hy
      obtain ⟨hframe, hlets⟩ := hwaits question frame cpu rfl
      have hheld : cpu.held = [] := (congrArg Sync.Cpu.held hput).trans hcpu
      refine ⟨_, _, H', hrun, ⟨hheld, hserved, ?_, ?_, ?_⟩, hleads, .asked (hputs _ _ _ rfl)⟩
      · rw [closings_cons]
        exact hbooks
      · intro p hp
        rcases List.mem_cons.mp hp with rfl | hp
        · exact hframe
        · exact hvalid p hp
      · rw [List.filterMap_cons]
        cases ht : frame.dropped? with
        | none => exact hdropped
        | some t =>
            -- the table that is let go is the excepted one, on which no call below works
            refine List.nodup_cons.mpr ⟨fun hmem => ?_, hdropped⟩
            obtain ⟨p, hp, hpt⟩ := List.mem_filterMap.mp hmem
            obtain ⟨st, hst, -⟩ := (hv p hp).unreachable hpt
            exact hexcept p hp (Frame.table?_of_dropped? hpt) ⟨st, hst, .inr hpt⟩ (hlets t ht)

namespace Sound

/-- A call from outside makes a step. -/
theorem call (h : m.Sound H) (origin : Origin) {call : Call} (ha : m.admits call = true) :
    ∃ outcome m' H', run m.kernel m.stack origin (Action.perform call) = .ok (outcome, m') ∧
      Advance H m.stack outcome m' H' := by
  refine run_of_lands origin (Action.lands_perform h.books h.served h.unlocked ha) h.unlocked
    h.valid h.dropped fun p hp t ht _ hdropped => ?_
  cases call with
  | dropTable u =>
      cases hdropped
      simp only [Machine.admits, Bool.and_eq_true, Bool.not_eq_true'] at ha
      exact List.any_eq_false.mp ha.2 p hp (decide_eq_true ht)
  | _ => cases hdropped

/-- What a process calls makes sense where its table and the global file system do. -/
theorem admits_process {t : TableId} (hv : m.kernel.store.hasVfs Process.globalVfs = true)
    (hr : m.kernel.store.isReachable t = true) {processCall : ProcessCall} {call : Call}
    (h : Process.call t processCall = .ok call) : m.admits call = true := by
  have hfd : ∀ (fd : Int32) (toCall : Nat → Call), (∀ n, m.admits (toCall n) = true) →
      (Process.descriptor fd).map toCall = .ok call → m.admits call = true := by
    intro fd toCall hadmits hmap
    cases hn : Process.descriptor fd with
    | error e =>
        rw [hn] at hmap
        cases hmap
    | ok n =>
        rw [hn] at hmap
        cases hmap
        exact hadmits n
  cases processCall with
  | «open» path flags mode =>
      cases h
      exact Bool.and_eq_true_iff.mpr ⟨hv, hr⟩
  | close fd => exact hfd fd (.close t) (fun _ => hr) h
  | read fd length => exact hfd fd (.transfer t · (.read length)) (fun _ => hr) h
  | write fd data => exact hfd fd (.transfer t · (.write data)) (fun _ => hr) h
  | readdir fd => exact hfd fd (.transfer t · .readdir) (fun _ => hr) h
  | control fd op argument => exact hfd fd (.transfer t · (.control op argument)) (fun _ => hr) h

/-- A call that fails before it begins makes a step. -/
theorem failed (h : m.Sound H) (origin : Origin) (e : Error) :
    ∃ outcome m' H', run m.kernel m.stack origin (pure (.failed e)) = .ok (outcome, m') ∧
      Advance H m.stack outcome m' H' := by
  have hlands : Action.Lands (pure (.failed e)) m.kernel.cpu H m.closings none m.kernel.store :=
    Action.lands_pure h.books h.served (.error e)
  refine run_of_lands origin hlands h.unlocked h.valid h.dropped ?_
  intro _ _ _ _ _ hdropped
  cases hdropped

/-- An answer that makes sense makes a step. -/
theorem answer {kernel : Kernel} {pending : Pending} {rest : List Pending}
    (h : Sound H ⟨kernel, pending :: rest⟩) {reply : Reply}
    (ha : accepts kernel.store pending.frame reply = true) :
    ∃ outcome m' H', run kernel rest pending.origin (Action.resume pending.frame reply) =
        .ok (outcome, m') ∧
      Advance (H.answered kernel.store pending.frame reply) rest outcome m' H' := by
  have hbooks := h.books
  rw [closings_cons] at hbooks
  have hpending := h.valid pending List.mem_cons_self
  have hdropped := h.dropped
  rw [List.filterMap_cons] at hdropped
  have hnodup : (rest.filterMap (·.frame.dropped?)).Nodup ∧
      ∀ {t}, pending.frame.dropped? = some t → t ∉ rest.filterMap (·.frame.dropped?) := by
    cases ht : pending.frame.dropped? with
    | none =>
        rw [ht] at hdropped
        exact ⟨hdropped, nofun⟩
    | some u =>
        rw [ht] at hdropped
        obtain ⟨hnot, hnodup⟩ := List.nodup_cons.mp hdropped
        refine ⟨hnodup, fun hu => ?_⟩
        cases hu
        exact hnot
  refine run_of_lands pending.origin (Action.lands_resume hbooks h.served h.unlocked hpending ha)
    h.unlocked (fun p hp => h.valid p (List.mem_cons_of_mem _ hp)) hnodup.1 ?_
  rintro p hp t - ⟨st, hst, hr | hpt⟩ ht
  · -- the table is out of reach since the answered call let it go
    obtain ⟨st', hst', hr'⟩ := hpending.unreachable ht
    rw [hst] at hst'
    cases hst'
    rw [hr] at hr'
    cases hr'
  · exact hnodup.2 ht (List.mem_filterMap.mpr ⟨p, hp, hpt⟩)

end Sound

/-- What is remembered when the event has come in. -/
def recalled (H : History) (m : Machine) : Event → History
  | .reply reply =>
    match m.stack with
    | pending :: _ => H.answered m.kernel.store pending.frame reply
    | [] => H
  | _ => H

/-- The calls that stay suspended when the event has come in. -/
def below (m : Machine) : Event → List Pending
  | .reply _ => m.stack.tail
  | _ => m.stack

/-- **Every event** is refused and changes nothing, or makes a step; no event is a fault. -/
theorem Sound.step (h : m.Sound H) (e : Event) : m.step e = .ok (.refused, m) ∨
    ∃ outcome m' H', m.step e = .ok (outcome, m') ∧
      Advance (m.recalled H e) (m.below e) outcome m' H' := by
  cases e with
  | call call =>
      by_cases ha : m.admits call = true
      · refine .inr ?_
        rw [Machine.step, if_pos ha]
        exact h.call .direct ha
      · refine .inl ?_
        rw [Machine.step, if_neg ha]
        rfl
  | process current processCall =>
      by_cases ha : (m.kernel.store.hasVfs Process.globalVfs &&
          m.kernel.store.isReachable (Process.currentTable current)) = true
      · refine .inr ?_
        obtain ⟨hv, hr⟩ := Bool.and_eq_true_iff.mp ha
        simp only [Machine.step]
        rw [if_pos ha]
        cases hcall : Process.call (Process.currentTable current) processCall with
        | error e => exact h.failed _ e
        | ok call => exact h.call _ (admits_process hv hr hcall)
      · refine .inl ?_
        simp only [Machine.step]
        rw [if_neg ha]
        rfl
  | reply reply =>
      obtain ⟨kernel, stack⟩ := m
      cases stack with
      | nil => exact .inl rfl
      | cons pending rest =>
          by_cases ha : accepts kernel.store pending.frame reply = true
          · refine .inr ?_
            simp only [Machine.step]
            rw [if_pos ha]
            exact h.answer ha
          · refine .inl ?_
            simp only [Machine.step]
            rw [if_neg ha]
            rfl

/-- No event is a fault, and the machine stays sound. -/
theorem Sound.exists_step (h : m.Sound H) (e : Event) :
    ∃ outcome m' H', m.step e = .ok (outcome, m') ∧ m'.Sound H' := by
  rcases h.step e with hstep | ⟨outcome, m', H', hstep, a⟩
  · exact ⟨_, _, H, hstep, h⟩
  · exact ⟨outcome, m', H', hstep, a.sound⟩

end Machine

end VirtualFs
