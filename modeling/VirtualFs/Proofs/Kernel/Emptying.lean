import VirtualFs.Proofs.Kernel.Copying
import VirtualFs.Proofs.Kernel.Destruction
import VirtualFs.Proofs.Kernel.Undisturbed

/-!
# Emptying a table

Destroying a table, and letting go of it, release what its slots hold, one after the other in
ascending order.  Where drivers do not call back, exactly those are asked to close a file whose last
reference has been released, whatever they answer; in the end no slot of the table is taken, and
every other table is as it was.  So of all tables that share a file the last one to be emptied has
it closed.

* `Store.Swept`: how far a table has been emptied.
* `Action.ensures_clears`: emptying goes on to the next question or to the end, by induction on the
  slots that are left.
* `Emptying.next`: from answer to answer.
* `Emptyings.askedLast`: several tables one after the other.
* `emptied_tables_release_once`: every run.
-/

namespace VirtualFs

namespace SweepPurpose

/-- The call that empties table `t`. -/
def call (t : TableId) : SweepPurpose → Call
  | .destroy => .destroyTable t
  | .drop => .dropTable t

/-- The state in which a table is when it begins to be emptied. -/
def begins (st : TableState) : SweepPurpose → TableState
  | .destroy => st
  | .drop => ⟨st.table, false⟩

/-- The store when the table has been emptied. -/
def ends (t : TableId) (s : Store) : SweepPurpose → Store
  | .destroy => s
  | .drop => s.withState t none

theorem table_begins (st : TableState) (purpose : SweepPurpose) :
    (purpose.begins st).table = st.table := by
  cases purpose <;> rfl

end SweepPurpose

namespace Store

variable {s s' : Store} {t : TableId} {st : TableState} {n : Nat} {entry : FdEntry}

/-- **How far a table has been emptied**: its open slots before number `n` have been given up, and a
reference to what they held has been released. -/
structure Swept (s : Store) (t : TableId) (st : TableState) (n : Nat) (s' : Store) : Prop where
  rest : s' = { s with tables := s'.tables, references := s'.references }
  state : s'.tableState? t = some { st with table := st.table.cleared n }
  others : ∀ u ≠ t, s'.tableState? u = s.tableState? u
  counts : ∀ id, s'.references.count id + st.table.held id n = s.references.count id

theorem swept_withState (ht : s.tableState? t = some st) (st' : TableState) :
    s.Swept t st' 0 (s.withState t (some st')) where
  rest := rfl
  state := tableState?_withState_self ht _
  others u hu := by rw [tableState?_withState ht, if_neg hu]
  counts _ := rfl

namespace Swept

/-- A slot that is not open is passed over. -/
theorem pass (h : s.Swept t st n s') (hshut : st.table.opened? n = none) :
    s.Swept t st (n + 1) s' where
  rest := h.rest
  state := by rw [FdTable.cleared_succ_of_shut hshut, h.state]
  others := h.others
  counts id := by rw [FdTable.held_succ, hshut, ← h.counts id]; rfl

/-- An open slot is given up, and its reference is released. -/
theorem release (h : s.Swept t st n s') (hopen : st.table.opened? n = some entry)
    (hpos : 0 < s'.references.count entry.descriptor.id) :
    s.Swept t st (n + 1) ((s'.withTable t { st with table := st.table.cleared n }
      ((st.table.cleared n).vacated n)).withReferences (s'.references.less entry.descriptor)) where
  rest := by
    rw [h.rest]
    rfl
  state := by
    rw [FdTable.cleared_succ_of_open hopen]
    exact tableState?_withState_self h.state _
  others u hu := by
    rw [← h.others u hu]
    exact (tableState?_withState h.state _ u).trans (if_neg hu)
  counts id := by
    have hless := References.count_less_id (References.lt_next hpos) id
    have hcounts := h.counts id
    rw [FdTable.held_succ, hopen]
    show (s'.references.less entry.descriptor).count id + _ = _
    rw [hless]
    simp only [Option.any_some, decide_eq_true_eq]
    split
    · rename_i he
      subst he
      omega
    · omega

end Swept

end Store

namespace Action

variable {s s' : Store} {t : TableId} {st : TableState} {purpose : SweepPurpose} {n : Nat}

/-- **What comes of emptying a table** from slot `n` on, begun in the store `s`: the driver of the
next file is asked of which the last reference has been released, or there is none. -/
inductive Clears (s : Store) (t : TableId) (st : TableState) (purpose : SweepPurpose) (n : Nat) :
    Progress → Store → Prop
  | waiting {question : HookCall} {entry : FdEntry} {remaining n' : Nat}
      {cpu : Sync.Cpu LockId} {s' : Store}
      (hswept : s.Swept t st n' s') (hleft : n' + remaining = st.table.capacity)
      (hquestions : st.table.closings s.references n' =
        st.table.closings s.references n ++ [question]) :
      Clears s t st purpose n (.waiting question (.sweeping t purpose entry remaining n') cpu) s'
  | finished {s' : Store} (hswept : s.Swept t st st.table.capacity s')
      (hquestions : st.table.closings s.references st.table.capacity =
        st.table.closings s.references n) :
      Clears s t st purpose n (.succeeded .done) (purpose.ends t s')

/-- A slot more for which nobody is asked. -/
theorem Clears.cons {p : Progress} (h : Clears s t st purpose (n + 1) p s')
    (hnone : (st.table.opened? n).bind (·.lastClose? s.references) = none) :
    Clears s t st purpose n p s' := by
  have hsame : st.table.closings s.references (n + 1) = st.table.closings s.references n := by
    rw [FdTable.closings_succ, hnone, Option.toList_none, List.append_nil]
  cases h with
  | waiting hswept hleft hquestions => exact .waiting hswept hleft (hsame ▸ hquestions)
  | finished hswept hquestions => exact .finished hswept (hsame ▸ hquestions)

theorem ensures_swept_exact (t : TableId) (purpose : SweepPurpose) :
    (swept t purpose).Ensures s fun p s' => p = .succeeded .done ∧ s' = purpose.ends t s := by
  cases purpose with
  | destroy => exact ensures_pure ⟨rfl, rfl⟩
  | drop =>
    intro k p k' hk h
    cases h
    exact ⟨rfl, by rw [← hk]; rfl⟩

/-- **Emptying a table**, by induction on the slots that are left. -/
theorem ensures_clears (hd : st.table.Distinct) (hswept : s.Swept t st n s') {remaining : Nat}
    (hleft : n + remaining = st.table.capacity) :
    (sweep t purpose remaining n).Ensures s' (Clears s t st purpose n) := by
  induction remaining generalizing n s' with
  | zero =>
    obtain rfl : n = st.table.capacity := hleft
    refine (ensures_swept_exact t purpose).mono ?_
    rintro _ _ ⟨rfl, rfl⟩
    exact .finished hswept rfl
  | succ remaining ih =>
    have hleft' : n + 1 + remaining = st.table.capacity := by omega
    refine (ensures_editTable t _).bind ?_
    rintro found _ ⟨st', table, ht, htake, rfl⟩
    cases hswept.state.symm.trans ht
    rcases FdTable.take_eq_ok htake with ⟨rfl, rfl, hshut⟩ | ⟨entry, rfl, hslot, rfl⟩
    · have hnone : st.table.opened? n = none := by
        rw [← FdTable.opened?_cleared, FdTable.opened?_eq_none]
        exact hshut
      have hsame := Store.withTable_self hswept.state
      dsimp only at hsame ⊢
      rw [hsame]
      refine (ih (hswept.pass hnone) hleft').mono fun p s'' h => h.cons ?_
      rw [hnone, Option.bind_none]
    · have hopen : st.table.opened? n = some entry := by
        rw [← FdTable.opened?_cleared, FdTable.opened?_eq_some]
        exact hslot
      -- no slot before holds the descriptor, so its count is the one that there was at first
      have hcount := hswept.counts entry.descriptor.id
      rw [hd.held_eq_zero hopen, Nat.add_zero] at hcount
      refine (ensures_release entry).bind ?_
      rintro _ _ ⟨hpos, rfl, rfl⟩
      have hlast : entry.lastClose? s'.references = entry.lastClose? s.references := by
        rw [FdEntry.lastClose?, FdEntry.lastClose?, hcount]
      have hnext := hswept.release hopen hpos
      dsimp only
      rw [show (s'.withTable t _ _).references = s'.references from rfl, hlast]
      cases hquestion : entry.lastClose? s.references with
      | none =>
        refine (ih hnext hleft').mono fun p s'' h => h.cons ?_
        rw [hopen, Option.bind_some, hquestion]
      | some question =>
        refine ensures_ask fun cpu => .waiting hnext hleft' ?_
        rw [FdTable.closings_succ, hopen, Option.bind_some, hquestion, Option.toList_some]

/-- **The call that empties a table** begins with its first slot. -/
theorem ensures_empties (purpose : SweepPurpose) (ht : s.tableState? t = some st)
    (hd : st.table.Distinct) :
    (perform (purpose.call t)).Ensures s (Clears s t (purpose.begins st) purpose 0) := by
  have hbegins := Store.swept_withState ht (purpose.begins st)
  rw [← purpose.table_begins st] at hd
  cases purpose with
  | destroy =>
    have hsame : s.withState t (some (SweepPurpose.destroy.begins st)) = s :=
      Store.withTable_self ht
    rw [hsame] at hbegins
    refine (ensures_unlocked (Section.ensures_getTable t)).bind ?_
    rintro _ _ ⟨⟨st', ht', rfl⟩, rfl⟩
    cases ht.symm.trans ht'
    exact ensures_clears hd hbegins (Nat.zero_add _)
  | drop =>
    have hforget : Section.Ensures (do
        let table ← Section.getTable t
        Section.setTableState t (some ⟨table, false⟩)
        return table.capacity) s fun capacity s' =>
          capacity = st.table.capacity ∧ s' = s.withState t (some ⟨st.table, false⟩) := by
      refine (Section.ensures_getTable t).bind ?_
      rintro _ _ ⟨⟨st', ht', rfl⟩, rfl⟩ capacity s' h
      cases ht.symm.trans ht'
      cases h
      exact ⟨rfl, rfl⟩
    refine (ensures_unlocked hforget).bind ?_
    rintro _ _ ⟨rfl, rfl⟩
    exact ensures_clears hd hbegins (Nat.zero_add _)

/-- **Emptying goes on**, whatever the driver has answered. -/
theorem ensures_clears_on (hd : st.table.Distinct) (hswept : s.Swept t st n s') {remaining : Nat}
    (hleft : n + remaining = st.table.capacity) (entry : FdEntry) (reply : Reply) :
    (resume (.sweeping t purpose entry remaining n) reply).Ensures s'
      (Clears s t st purpose n) := by
  have hsweep : ∀ failure, (sweepOn t purpose entry remaining n failure).Ensures s'
      (Clears s t st purpose n) := by
    rintro (_ | e)
    · exact ensures_clears hd hswept hleft
    · exact (ensures_note _).bind_same fun _ => ensures_clears hd hswept hleft
  cases reply with
  | failed e => exact hsweep (some e)
  | _ => exact hsweep none

end Action

/-! ### What is left of a table -/

/-- **All that a table held is released**, which was in the state `st`, and only that. -/
structure Store.Releases (s : Store) (purpose : SweepPurpose) (t : TableId) (st : TableState)
    (s' : Store) : Prop where
  rest : s' = { s with tables := s'.tables, references := s'.references }
  destroyed : purpose = .destroy → ∃ table,
    s'.tableState? t = some { st with table := table } ∧ st.table.Cleared table
  dropped : purpose = .drop → s'.tableState? t = none
  /-- All other tables have the slots and the queues that they had. -/
  others : ∀ u ≠ t, s'.tableState? u = s.tableState? u
  released : ∀ {fd : Nat} {entry}, st.table.slots[fd]? = some (.opened entry) →
    s'.references.count entry.descriptor.id + 1 = s.references.count entry.descriptor.id
  kept : ∀ {id}, (∀ (fd : Nat) entry, st.table.slots[fd]? = some (.opened entry) →
    entry.descriptor.id ≠ id) → s'.references.count id = s.references.count id
  /-- What another table holds as well stays open. -/
  shared : ∀ {u fd entry}, u ≠ t → s.slot? u fd = some (.opened entry) →
    0 < s'.references.count entry.descriptor.id

/-- A table that has been emptied as far as its capacity. -/
theorem Store.Swept.releases {s s' : Store} {purpose : SweepPurpose} {t : TableId} {st : TableState}
    {H : History} {C : List Closing}
    (h : s.Swept t (purpose.begins st) (purpose.begins st).table.capacity s')
    (hr : st.table.Regular) (hd : st.table.Distinct)
    (hidle : ∀ fd : Nat, st.table.slots[fd]? ≠ some .closing)
    (b : Books H C (purpose.ends t s')) : s.Releases purpose t st (purpose.ends t s') := by
  have hcounts := h.counts
  rw [purpose.table_begins] at hcounts
  have hreferences : (purpose.ends t s').references = s'.references := by
    cases purpose <;> rfl
  have hothers : ∀ u ≠ t, (purpose.ends t s').tableState? u = s.tableState? u := by
    intro u hu
    rw [← h.others u hu]
    cases purpose with
    | destroy => rfl
    | drop => exact (tableState?_withState h.state none u).trans (if_neg hu)
  exact
    { rest := by
        rw [hreferences]
        cases purpose with
        | destroy => exact h.rest
        | drop =>
          show s'.withState t none = _
          rw [h.rest]
          rfl
      destroyed := by
        rintro rfl
        exact ⟨_, h.state, hr.clears hidle⟩
      dropped := by
        rintro rfl
        exact tableState?_withState_self h.state none
      others := hothers
      released := by
        intro fd entry hslot
        have hlt := FdTable.lt_size hslot
        rw [hr.size] at hlt
        rw [hreferences, ← hcounts, hd.held_eq_one (FdTable.opened?_eq_some.mpr hslot) hlt]
      kept := by
        intro id hnone
        rw [hreferences, ← hcounts id, FdTable.held_eq_zero fun fd entry hentry hid => ?_,
          Nat.add_zero]
        exact absurd hid (hnone fd entry (FdTable.opened?_eq_some.mp hentry))
      shared := by
        intro u fd entry hu hslot
        obtain ⟨su, hsu, hslot⟩ := Option.bind_eq_some_iff.mp hslot
        exact b.count_pos ((hothers u hu).trans hsu) hslot }

/-! ### Turns -/

namespace Moment

/-- The step begins to empty the table, whose state is `st`, while no file of it is being closed. -/
structure Empties (n : Moment) (purpose : SweepPurpose) (t : TableId) (st : TableState) :
    Prop where
  event : n.event = .call (purpose.call t)
  admits : n.before.admits (purpose.call t) = true
  state : n.before.kernel.store.tableState? t = some st
  idle : ∀ fd : Nat, st.table.slots[fd]? ≠ some .closing

/-- **How far a call has come** that found the table in the state `st` in the store `s`, when these
questions have been answered. -/
inductive Discharges (n : Moment) (s : Store) (purpose : SweepPurpose) (t : TableId)
    (st : TableState) (answered : List HookCall) : Prop
  | asks {question : HookCall} {rest : List HookCall} (hasked : n.outcome = .asked question)
      (hquestions : st.table.closings s.references st.table.capacity =
        answered ++ question :: rest)
  | returns (hreturned : n.outcome = .returned (.ok .done))
      (hquestions : st.table.closings s.references st.table.capacity = answered)
      (honce : answered.Nodup)
      (hreleases : s.Releases purpose t st n.after.kernel.store)
      -- for who lets go of the destroyed table nothing is left to close
      (hdrop : purpose = .destroy → n.after.admits (.dropTable t) = true →
        ∃ m, n.after.step (.call (.dropTable t)) = .ok (.returned (.ok .done), m))

end Moment

/-- **How far a call has come** that empties a table, where nobody has called since it began in the
store `s`. -/
inductive Emptying (s : Store) (t : TableId) (st : TableState) (purpose : SweepPurpose) :
    List HookCall → Moment → Prop
  | asks {answered : List HookCall} {question : HookCall} {entry : FdEntry} {remaining n : Nat}
      {now : Moment} (hwaits : now.Waits question (.sweeping t purpose entry remaining n))
      (hswept : s.Swept t st n now.after.kernel.store)
      (hleft : n + remaining = st.table.capacity)
      (hquestions : st.table.closings s.references n = answered ++ [question]) :
      Emptying s t st purpose answered now
  | returns {answered : List HookCall} {s' : Store} {now : Moment}
      (hreturned : now.outcome = .returned (.ok .done))
      (hswept : s.Swept t st st.table.capacity s')
      (hends : now.after.kernel.store = purpose.ends t s')
      (hquestions : st.table.closings s.references st.table.capacity = answered) :
      Emptying s t st purpose answered now

section

variable {past : List Moment} {start turn now : Moment} {s : Store} {t : TableId} {st : TableState}
  {purpose : SweepPurpose} {answered : List HookCall}

/-- What comes of a step that empties a table. -/
theorem Action.Clears.emptying {n : Nat} {p : Progress}
    (h : Action.Clears s t st purpose n p now.after.kernel.store)
    (hends : p.Ends .direct (now.before.below now.event) now.outcome now.after.stack)
    (hquestions : st.table.closings s.references n = answered) :
    Emptying s t st purpose answered now := by
  generalize hs : now.after.kernel.store = s' at h
  cases h with
  | waiting hswept hleft hnext =>
    exact .asks ⟨hends.of_waiting.1, hends.of_waiting.2⟩ (hs ▸ hswept) hleft (hquestions ▸ hnext)
  | finished hswept hnone =>
    exact .returns hends.of_finished.1 hswept hs (hnone.trans hquestions)

/-- **The first step.** -/
theorem Happens.empties (h : Happens past now) (e : now.Empties purpose t st)
    (hd : st.table.Distinct) :
    Emptying now.before.kernel.store t (purpose.begins st) purpose [] now := by
  obtain ⟨p, c⟩ := h.carries e.event e.admits
  exact (c.ensures (Action.ensures_empties purpose e.state hd)).emptying c.ends rfl

/-- **Every answer** takes the call further. -/
theorem Emptying.next {question : HookCall} {reply : Reply}
    (k : Emptying s t st purpose answered turn) (hd : st.table.Distinct)
    (hsame : now.before = turn.after) (hc : turn.Continues now question reply) :
    Emptying s t st purpose (answered ++ [question]) now := by
  cases k with
  | asks hwaits hswept hleft hquestions =>
    cases hc.asked.symm.trans hwaits.asked
    obtain ⟨-, p, c⟩ := hc.carried hwaits.stack
    rw [← hsame] at hswept
    exact (c.ensures (Action.ensures_clears_on hd hswept hleft _ reply)).emptying c.ends hquestions
  | returns hreturned => cases hc.asked.symm.trans hreturned

/-- A call that finds no slot open asks nobody. -/
theorem Emptying.returned (k : Emptying s t st purpose answered now)
    (hshut : ∀ fd, st.table.opened? fd = none) : now.outcome = .returned (.ok .done) := by
  cases k with
  | asks _ _ _ hquestions =>
    rw [FdTable.closings_eq_nil hshut] at hquestions
    simp at hquestions
  | returns hreturned => exact hreturned

/-- Who lets go of a table of which no slot is taken asks nobody. -/
theorem Happens.drops (h : Happens past now) {table : FdTable} (hc : st.table.Cleared table)
    (ht : now.after.kernel.store.tableState? t = some { st with table := table })
    (ha : now.after.admits (.dropTable t) = true) :
    ∃ m, now.after.step (.call (.dropTable t)) = .ok (.returned (.ok .done), m) := by
  obtain ⟨H, r⟩ := h.after
  have hregular := r.sound.books.regular ht
  have hshut := hc.shut hregular
  obtain ⟨outcome, m, hnext⟩ := h.next (.call (.dropTable t))
  have hidle : ∀ fd : Nat, table.slots[fd]? ≠ some .closing := by
    intro fd hslot
    have hlt := FdTable.lt_size hslot
    rw [hregular.size, hc.capacity] at hlt
    cases (hc.slots fd hlt).symm.trans hslot
  have hd : table.Distinct := fun i j e e' he => by cases (hshut i).symm.trans he
  have hempties : Emptying _ t (SweepPurpose.drop.begins _) .drop [] _ :=
    hnext.empties ⟨rfl, ha, ht, hidle⟩ hd
  have hreturned : outcome = .returned (.ok .done) := hempties.returned hshut
  exact ⟨m, hreturned ▸ hnext.step⟩

end

/-! ### Runs -/

/-- The machine is as the last moment has left it. -/
def Follows (past : List Moment) (m : Machine) : Prop :=
  ∀ a n, past = a ++ [n] → m = n.after

theorem follows_concat (past : List Moment) (now : Moment) :
    Follows (past ++ [now]) now.after := by
  intro a n he
  rw [List.singleton_inj.mp (List.append_inj' he rfl).2]

/-- What is known besides: where files come from, and that nothing happens between two moments. -/
structure Retraced (past : List Moment) (now : Moment) : Prop extends Attested past now where
  provenance : Provenance past now.before
  follows : Follows past now.before

section

variable {moments past later future : List Moment} {start now : Moment} {t : TableId}
  {st : TableState} {purpose : SweepPurpose} {dialogue : List (HookCall × Reply)}

/-- **A call that empties a table** whose drivers do not call back, at every turn. -/
theorem Moment.Empties.discharges (e : start.Empties purpose t st)
    (hmoments : ∀ past now future, moments = past ++ now :: future → Retraced past now)
    (he : moments = past ++ start :: (later ++ future)) (hturn : start.Turn later dialogue now)
    (hquiet : Quiet later) :
    now.Discharges start.before.kernel.store purpose t st (dialogue.map Prod.fst) := by
  have k := hmoments _ _ _ he
  obtain ⟨H, r⟩ := k.happens.before
  have hd := k.provenance.distinct r.sound.books e.state
  have hregular := r.sound.books.regular e.state
  have htable := purpose.table_begins st
  have hemptying : Emptying start.before.kernel.store t (purpose.begins st) purpose
      (dialogue.map Prod.fst) now := by
    refine Undisturbed.turns (P := fun dialogue now => Emptying start.before.kernel.store t
      (purpose.begins st) purpose (dialogue.map Prod.fst) now) (fun past now future he => ?_) he
      hturn hquiet (k.happens.empties e hd) fun k _ hsame hc => ?_
    · exact (hmoments past now future he).toAttested
    · rw [List.map_append]
      exact k.next (htable ▸ hd) hsame hc
  obtain ⟨front, hfront⟩ := hturn.exists_front
  have hnow : Happens (past ++ front) now := by
    refine (hmoments (past ++ front) now future ?_).happens
    rw [he, ← List.cons_append, hfront]
    simp
  cases hemptying with
  | @asks question entry remaining n _ hwaits hswept hleft hquestions =>
    rw [htable] at hleft hquestions
    obtain ⟨rest, hrest⟩ := st.table.closings_prefix start.before.kernel.store.references
      (hleft ▸ Nat.le_add_right n remaining)
    rw [hquestions, List.append_assoc, List.singleton_append] at hrest
    exact .asks hwaits.asked hrest.symm
  | returns hreturned hswept hends hquestions =>
    rw [htable] at hquestions
    obtain ⟨H', r'⟩ := hnow.after
    have b := r'.sound.books
    rw [hends] at b
    have hreleases := hswept.releases hregular hd e.idle b
    rw [← hends] at hreleases
    refine .returns hreturned hquestions (hquestions ▸ FdTable.nodup_closings
      (k.provenance.distinct_handles r.sound.books e.state)) hreleases fun hdestroy ha => ?_
    obtain ⟨table, ht, hcleared⟩ := hreleases.destroyed hdestroy
    exact hnow.drops hcleared ht ha

end

/-! ### One table after the other -/

/-- **Tables are emptied one after the other**, and nobody calls meanwhile: which they are, and what
has been asked for each. -/
inductive Emptyings : List Moment → List (TableId × List HookCall) → Prop
  | nil : Emptyings [] []
  | cons {purpose : SweepPurpose} {t : TableId} {st : TableState} {start now : Moment}
      {later moments : List Moment} {dialogue : List (HookCall × Reply)}
      {emptied : List (TableId × List HookCall)} (hbegin : start.Empties purpose t st)
      (hturn : start.Turn later dialogue now) (hquiet : Moment.Quiet later)
      (hreturned : now.outcome = .returned (.ok .done)) (hrest : Emptyings moments emptied) :
      Emptyings (start :: (later ++ moments)) ((t, dialogue.map Prod.fst) :: emptied)

/-- The question has been asked for the last of the tables, once, and for no other. -/
def AskedLast (question : HookCall) (emptied : List (TableId × List HookCall)) : Prop :=
  ∃ front t questions, emptied = front ++ [(t, questions)] ∧ questions.count question = 1 ∧
    ∀ e ∈ front, question ∉ e.2

section

variable {moments past between future : List Moment} {now : Moment} {t : TableId} {st : TableState}
  {purpose : SweepPurpose} {d : Descriptor} {driver : External}
  {emptied : List (TableId × List HookCall)}

/-- Emptying a table asks for the closing of a file that it holds exactly if there is one reference
to it. -/
theorem Happens.mem_closings (h : Happens past now) (e : now.Empties purpose t st)
    (hhas : now.before.kernel.store.Has t d) (hdriver : d.record.driver = .external driver) :
    .close driver d.handle ∈
        st.table.closings now.before.kernel.store.references st.table.capacity ↔
      now.before.kernel.store.references.count d.id = 1 := by
  obtain ⟨H, r⟩ := h.before
  have b := r.sound.books
  obtain ⟨fd, entry, hslot, rfl⟩ := hhas
  rw [Store.slot?, e.state, Option.bind_some] at hslot
  rw [FdTable.mem_closings]
  constructor
  · rintro ⟨i, -, other, hother, hclose⟩
    obtain ⟨hone, hclose⟩ := FdEntry.lastClose?_eq_some.mp hclose
    obtain ⟨driver', -, hsame⟩ := FdEntry.close?_eq_some.mp hclose
    rw [FdTable.opened?_eq_some] at hother
    rwa [b.handles (b.opened (Books.opens_pos e.state hslot))
      (b.opened (Books.opens_pos e.state hother)) (HookCall.close.inj hsame).2]
  · intro hone
    have hlt := FdTable.lt_size hslot
    rw [(b.regular e.state).size] at hlt
    exact ⟨fd, hlt, entry, FdTable.opened?_eq_some.mpr hslot, FdEntry.lastClose?_eq_some.mpr
      ⟨hone, FdEntry.close?_eq_some.mpr ⟨driver, hdriver, rfl⟩⟩⟩

/-- **Of all tables that share a file the last one has it closed**, by induction on the tables. -/
theorem Emptyings.askedLast
    (hmoments : ∀ past now future, moments = past ++ now :: future → Retraced past now)
    (hdriver : d.record.driver = .external driver) (k : Emptyings between emptied)
    (he : moments = past ++ (between ++ future)) {s : Store}
    (hs : ∀ n rest, between = n :: rest → n.before.kernel.store = s) (hne : emptied ≠ [])
    (hnodup : (emptied.map Prod.fst).Nodup) (hhas : ∀ t ∈ emptied.map Prod.fst, s.Has t d)
    (hcount : s.references.count d.id = emptied.length) :
    AskedLast (.close driver d.handle) emptied := by
  induction k generalizing past s with
  | nil => exact absurd rfl hne
  | @cons purpose t st start now later more dialogue emptied hbegin hturn hquiet hreturned hrest
      ih =>
    obtain rfl := hs _ _ rfl
    have he' : moments = past ++ start :: (later ++ (more ++ future)) := by
      simpa using he
    have hclose := (hmoments _ _ _ he').happens.mem_closings hbegin
      (hhas t List.mem_cons_self) hdriver
    cases hbegin.discharges hmoments he' hturn hquiet with
    | asks hasked => cases hreturned.symm.trans hasked
    | returns _ hquestions honce hreleases =>
      rw [hquestions] at hclose
      cases emptied with
      | nil => exact ⟨[], t, _, rfl, List.count_eq_one_of_mem honce (hclose.mpr hcount), nofun⟩
      | cons next emptied =>
        have hnot : HookCall.close driver d.handle ∉ dialogue.map Prod.fst := fun hmem => by
          have hone := hclose.mp hmem
          rw [hcount] at hone
          simp at hone
        obtain ⟨ht, hnodup⟩ := List.nodup_cons.mp hnodup
        have hmore : moments = (past ++ (start :: later)) ++ (more ++ future) := by
          simpa using he
        -- the next table is found as this one has been left
        have hsame : ∀ n rest, more = n :: rest →
            n.before.kernel.store = now.after.kernel.store := by
          rintro n rest rfl
          obtain ⟨front, hfront⟩ := hturn.exists_front
          rw [(hmoments _ n (rest ++ future) hmore).follows (past ++ front) now
            (by rw [hfront, List.append_assoc])]
        have hhas' : ∀ u ∈ (next :: emptied).map Prod.fst, now.after.kernel.store.Has u d := by
          intro u hu
          obtain ⟨fd, entry, hslot, hd⟩ := hhas u (List.mem_cons_of_mem _ hu)
          have hne : u ≠ t := fun he => ht (he ▸ hu)
          exact ⟨fd, entry, by rwa [Store.slot?, hreleases.others u hne], hd⟩
        have hcount' : now.after.kernel.store.references.count d.id = (next :: emptied).length := by
          obtain ⟨fd, entry, hslot, rfl⟩ := hhas t List.mem_cons_self
          rw [Store.slot?, hbegin.state, Option.bind_some] at hslot
          have hreleased := hreleases.released hslot
          rw [hcount, List.length_cons] at hreleased
          exact Nat.succ.inj hreleased
        obtain ⟨front, t', questions, hsplit, hasked, hnone⟩ :=
          ih hmore hsame (List.cons_ne_nil _ _) hnodup hhas' hcount'
        refine ⟨(t, dialogue.map Prod.fst) :: front, t', questions, by rw [hsplit]; rfl, hasked,
          fun e hmem => ?_⟩
        rcases List.mem_cons.mp hmem with rfl | hmem
        · exact hnot
        · exact hnone e hmem

end

/-- **Every table that is emptied**, be it destroyed or let go of, releases each descriptor that it
holds once, where no file of it is being closed and drivers do not call back.  The drivers of those
without a reference left are asked to close them, once each and in ascending order, whatever they
answer; then no slot of the table is taken and all other tables are as they were.  So of tables that
share a file, emptied one after the other, the last one has it closed. -/
theorem emptied_tables_release_once (word enableMask : Sync.Word) (events : List Event) :
    ∃ moments, (Machine.initial word enableMask).trace [] events = .ok moments ∧
      (∀ past start later future dialogue now purpose t st,
        moments = past ++ start :: (later ++ future) → start.Empties purpose t st →
        start.Turn later dialogue now → Moment.Quiet later →
        now.Discharges start.before.kernel.store purpose t st (dialogue.map Prod.fst)) ∧
      ∀ past start later future emptied d driver, moments = past ++ start :: (later ++ future) →
        Emptyings (start :: later) emptied → (emptied.map Prod.fst).Nodup →
        (∀ t ∈ emptied.map Prod.fst, start.before.kernel.store.Has t d) →
        start.before.kernel.store.references.count d.id = emptied.length →
        d.record.driver = .external driver → AskedLast (.close driver d.handle) emptied := by
  have hfollows : Follows [] (.initial word enableMask) := fun a n he => by simp at he
  obtain ⟨moments, htrace, hreached⟩ := Recalls.reached_undisturbed
    (I := fun past m => Provenance past m ∧ Follows past m)
    (fun {past now} h ha k => ⟨k.1.step h ha, follows_concat past now⟩)
    word enableMask ⟨.initial word enableMask, hfollows⟩ events
  have hmoments : ∀ past now future, moments = past ++ now :: future → Retraced past now := by
    intro past now future he
    obtain ⟨h, k, hfollows⟩ := hreached past now future he
    exact ⟨h, k, hfollows⟩
  refine ⟨moments, htrace, fun past start later future dialogue now purpose t st he e hturn
    hquiet => e.discharges hmoments he hturn hquiet, ?_⟩
  intro past start later future emptied d driver he k hnodup hhas hcount hdriver
  have hne : emptied ≠ [] := by
    rintro rfl
    cases k
  have hsame : ∀ n rest, start :: later = n :: rest →
      n.before.kernel.store = start.before.kernel.store := fun n rest hn => by
    rw [(List.cons.inj hn).1]
  exact k.askedLast hmoments hdriver he hsame hne hnodup hhas hcount

/-- A table and its copy are destroyed, and let go of: the driver is asked once, and refuses. -/
example : (do
    let ram : External := ⟨0, "ram"⟩
    let moments ← (Machine.initial 0 0).trace [] [.call (.createVfs 4),
      .call (.register 0 "/m".toList (.external ram) none), .call (.createTable 2),
      .call (.open 0 1 "/m/f".toList .readOnly 0), .reply .opened, .call (.copyTable 1 none),
      .call (.destroyTable 1), .call (.destroyTable 2), .reply (.failed .ioError),
      .call (.dropTable 2)]
    return (moments.drop 6).map fun n : Moment => n.outcome) =
    .ok [.returned (.ok .done), .asked (.close ⟨0, "ram"⟩ (.external 0)), .returned (.ok .done),
      .returned (.ok .done)] := by
  cbv

end VirtualFs
