import VirtualFs.Proofs.Kernel.FileEffects

/-!
# What becomes of queues

A number that becomes free goes to the back of the queue of its table, and only opening a file takes
one from the front.  So a job that opens no file leaves every queue as it is but for numbers that
have come behind it (`Store.Enqueues`).  A table is emptied from its first slot to its last, and a
new table has its numbers in order, so what comes in one step is ascending.

* `Enqueues.trans`, `enqueues_vacated`, `enqueues_withNewTable`: how queues grow.
* `enqueues_sweep`: emptying a table, by induction on the slots that are left.
* `enqueues_perform`, `enqueues_resume`: every job on files and tables that opens no file and copies
  no table.
-/

namespace VirtualFs

/-- The numbers of the free slots of a table, in ascending order. -/
def FdTable.freeSlots (t : FdTable) : List Nat :=
  (List.range t.slots.size).filter fun fd => decide (t.slots[fd]? = some .free)

theorem FdTable.mem_freeSlots {t : FdTable} {fd : Nat} :
    fd ∈ t.freeSlots ↔ t.slots[fd]? = some .free := by
  rw [freeSlots, List.mem_filter, List.mem_range, decide_eq_true_eq]
  exact ⟨And.right, fun h => ⟨lt_size h, h⟩⟩

/-- Where a slot that was free has been filled and the table is still regular, its number was the
first in the queue. -/
theorem FdTable.Regular.free_of_installed {t : FdTable} (r : t.Regular) {fd : Nat}
    {entry : FdEntry} (hslot : t.slots[fd]? = some .free) (r' : (t.installed fd entry).Regular) :
    t.free = fd :: (t.installed fd entry).free := by
  have hmem := (r.free fd).mpr hslot
  have hnot : fd ∉ t.free.tail := fun htail => by
    have hfree := (r'.free fd).mp htail
    rw [installed_slots, slots_withSlot hslot, if_pos rfl] at hfree
    cases hfree
  show t.free = fd :: t.free.tail
  cases hfree : t.free with
  | nil =>
      rw [hfree] at hmem
      cases hmem
  | cons i rest =>
      rw [hfree] at hmem hnot
      rw [(List.mem_cons.mp hmem).resolve_right hnot]
      rfl

namespace Store

variable {s s' s'' : Store} {t : TableId} {st : TableState} {fd : Nat} {P Q R : Nat → Prop}

/-- The numbers of the free slots of a table in the order in which they are handed out; a table that
is gone has none. -/
def queue (s : Store) (t : TableId) : List Nat :=
  ((s.tableState? t).map (·.table.free)).getD []

theorem queue_eq (ht : s.tableState? t = some st) : s.queue t = st.table.free := by
  rw [queue, ht]
  rfl

theorem queue_of_none (ht : s.tableState? t = none) : s.queue t = [] := by
  rw [queue, ht]
  rfl

theorem exists_of_queued (h : fd ∈ s.queue t) : s.tableState? t ≠ none := fun ht => by
  rw [queue_of_none ht] at h
  cases h

theorem queue_congr (h : s'.tables = s.tables) (t : TableId) : s'.queue t = s.queue t := by
  rw [queue, queue, tableState?, tableState?, h]

theorem queue_withTable (ht : s.tableState? t = some st) (table : FdTable) (u : TableId) :
    (s.withTable t st table).queue u = if u = t then table.free else s.queue u := by
  rw [queue, queue, withTable, tableState?_withState ht]
  split <;> rfl

/-- Another slot, which does not become free. -/
theorem queue_withSlot (ht : s.tableState? t = some st) (fd : Nat) (slot : Slot) (u : TableId) :
    (s.withTable t st (st.table.withSlot fd slot)).queue u = s.queue u := by
  rw [queue_withTable ht]
  split
  · rename_i hu
    rw [hu, queue_eq ht]
    rfl
  · rfl

/-- The queued numbers are those of the free slots. -/
theorem mem_queue (hregular : ∀ {t st}, s.tableState? t = some st → st.table.Regular) :
    fd ∈ s.queue t ↔ s.slot? t fd = some .free := by
  rw [queue, slot?]
  cases ht : s.tableState? t with
  | none => simp
  | some st => exact (hregular ht).free fd

/-- No number is queued twice. -/
theorem nodup_queue (hregular : ∀ {t st}, s.tableState? t = some st → st.table.Regular)
    (t : TableId) : (s.queue t).Nodup := by
  rw [queue]
  cases ht : s.tableState? t with
  | none => exact .nil
  | some st => exact (hregular ht).nodup

/-- **Queues grow at the back**, by numbers in ascending order of which `P` holds.  A table that is
gone stays gone. -/
structure Enqueues (P : Nat → Prop) (s s' : Store) : Prop where
  gone : ∀ {t}, t < s.tables.size → s.tableState? t = none → s'.tableState? t = none
  back : ∀ {t}, s'.tableState? t ≠ none →
    ∃ l, l.Pairwise (· < ·) ∧ (∀ fd ∈ l, P fd) ∧ s'.queue t = s.queue t ++ l
  size : s.tables.size ≤ s'.tables.size

theorem enqueues_of_tables (h : s'.tables = s.tables) : s.Enqueues P s' where
  gone _ ht := by rwa [tableState?, h]
  back _ := ⟨[], .nil, List.forall_mem_nil _, by rw [queue_congr h, List.append_nil]⟩
  size := by rw [h]

namespace Enqueues

theorem congr (h : s.Enqueues P s') (htables : s''.tables = s'.tables) : s.Enqueues P s'' where
  gone hlt ht := by
    rw [tableState?, htables]
    exact h.gone hlt ht
  back ht := by
    rw [tableState?, htables] at ht
    rw [queue_congr htables]
    exact h.back ht
  size := by
    rw [htables]
    exact h.size

theorem mono (h : s.Enqueues P s') (hPQ : ∀ fd, P fd → Q fd) : s.Enqueues Q s' where
  gone := h.gone
  back ht := by
    obtain ⟨l, hl, hP, hqueue⟩ := h.back ht
    exact ⟨l, hl, fun fd hfd => hPQ fd (hP fd hfd), hqueue⟩
  size := h.size

/-- What comes later comes behind, and is larger. -/
theorem trans (h : s.Enqueues P s') (h' : s'.Enqueues Q s'') (hlt : ∀ a b, P a → Q b → a < b)
    (hP : ∀ fd, P fd → R fd) (hQ : ∀ fd, Q fd → R fd) : s.Enqueues R s'' where
  gone hsize ht := h'.gone (Nat.lt_of_lt_of_le hsize h.size) (h.gone hsize ht)
  back {t} ht := by
    obtain ⟨l', hl', hQ', hqueue'⟩ := h'.back ht
    cases ht' : s'.tableState? t with
    -- the table has come last, and there was none before it
    | none =>
        rw [queue_of_none ht', List.nil_append] at hqueue'
        refine ⟨l', hl', fun fd hfd => hQ fd (hQ' fd hfd), ?_⟩
        cases hs : s.tableState? t with
        | none => rw [hqueue', queue_of_none hs, List.nil_append]
        | some st =>
            have hsize := Nat.lt_of_lt_of_le (lt_size_of_tableState? hs) h.size
            exact absurd (h'.gone hsize ht') ht
    | some st =>
        obtain ⟨l, hl, hP', hqueue⟩ := h.back (t := t) (by rw [ht']; exact Option.some_ne_none st)
        refine ⟨l ++ l', List.pairwise_append.mpr ⟨hl, hl', fun a ha b hb => ?_⟩, fun fd hfd => ?_,
          by rw [hqueue', hqueue, List.append_assoc]⟩
        · exact hlt a b (hP' a ha) (hQ' b hb)
        · exact (List.mem_append.mp hfd).elim (fun h => hP fd (hP' fd h)) fun h => hQ fd (hQ' fd h)
  size := Nat.le_trans h.size h'.size

end Enqueues

/-- **Another state of a table**, with more numbers behind the queue. -/
theorem enqueues_withState (ht : s.tableState? t = some st) {st' : TableState} {l : List Nat}
    (hfree : st'.table.free = st.table.free ++ l) (hl : l.Pairwise (· < ·))
    (hP : ∀ fd ∈ l, P fd) : s.Enqueues P (s.withState t (some st')) where
  gone {u} _ hu := by
    rw [tableState?_withState ht]
    split
    · rename_i hut
      rw [hut, ht] at hu
      cases hu
    · exact hu
  back {u} _ := by
    rw [queue, tableState?_withState ht]
    by_cases hu : u = t
    · subst hu
      rw [if_pos rfl, queue_eq ht]
      exact ⟨l, hl, hP, hfree⟩
    · rw [if_neg hu]
      exact ⟨[], .nil, List.forall_mem_nil _, (List.append_nil _).symm⟩
  size := Nat.le_of_eq Array.size_setIfInBounds.symm

/-- A slot that is given up. -/
theorem enqueues_vacated (ht : s.tableState? t = some st) (fd : Nat) :
    s.Enqueues (· = fd) (s.withTable t st (st.table.vacated fd)) :=
  enqueues_withState ht rfl (List.pairwise_singleton _ _) fun _ => List.mem_singleton.mp

/-- Another slot, which is not free. -/
theorem enqueues_withSlot (ht : s.tableState? t = some st) (fd : Nat) (slot : Slot) :
    s.Enqueues P (s.withTable t st (st.table.withSlot fd slot)) :=
  enqueues_withState ht (List.append_nil _).symm .nil (List.forall_mem_nil _)

/-- A table that is forgotten. -/
theorem enqueues_forget (s : Store) (t : TableId) : s.Enqueues P (s.withState t none) := by
  have hstate : ∀ u, (s.withState t none).tableState? u = none ∨
      (s.withState t none).tableState? u = s.tableState? u := by
    intro u
    rw [tableState?, withState, Array.getD_eq_getD_getElem?, Array.getElem?_setIfInBounds]
    rw [tableState?, Array.getD_eq_getD_getElem?]
    split
    · split <;> exact .inl rfl
    · exact .inr rfl
  refine ⟨fun {u} _ hu => ?_, fun {u} hu => ⟨[], .nil, List.forall_mem_nil _, ?_⟩,
    Nat.le_of_eq Array.size_setIfInBounds.symm⟩
  · rcases hstate u with h | h
    · exact h
    · rw [h, hu]
  · rw [List.append_nil, queue, queue, (hstate u).resolve_left hu]

/-- **A new table**, whose numbers are queued in ascending order. -/
theorem enqueues_withNewTable (s : Store) {table : FdTable} (h : table.free.Pairwise (· < ·)) :
    s.Enqueues (fun _ => True) (s.withNewTable table) where
  gone {u} hlt hu := by rwa [tableState?_withNewTable, if_neg (Nat.ne_of_lt hlt)]
  back {u} _ := by
    rw [queue, tableState?_withNewTable]
    split
    · rename_i hu
      have hnone : s.queue u = [] := by
        rw [hu, queue, tableState?, Array.getD_eq_getD_getElem?, Array.getElem?_eq_none le_rfl]
        rfl
      exact ⟨table.free, h, fun _ _ => trivial, by rw [hnone]; rfl⟩
    · exact ⟨[], .nil, List.forall_mem_nil _, (List.append_nil _).symm⟩
  size := by
    rw [withNewTable, Array.size_push]
    exact Nat.le_succ _

end Store

/-! ### Jobs that open no file -/

namespace Action

variable {s : Store} {P : Nat → Prop}

/-- **Emptying a table** from slot `next` on queues no number that is smaller, by induction on the
slots that are left. -/
theorem enqueues_sweep (t : TableId) (purpose : SweepPurpose) (remaining next : Nat) :
    (sweep t purpose remaining next).Ensures s fun _ s' => s.Enqueues (next ≤ ·) s' := by
  induction remaining generalizing s next with
  | zero =>
      cases purpose with
      | destroy => exact ensures_pure (Store.enqueues_of_tables rfl)
      | drop =>
          intro k p k' hk h
          cases h
          rw [← hk]
          exact k.store.enqueues_forget t
  | succ remaining ih =>
      -- where slot `next` is not open, nothing comes before what the rest queues
      have hlater : ∀ {s' : Store}, s'.tables = s.tables →
          (sweep t purpose remaining (next + 1)).Ensures s' fun _ s'' =>
            s.Enqueues (next ≤ ·) s'' :=
        fun htables => (ih (next + 1)).mono fun _ _ h =>
          (Store.enqueues_of_tables (P := fun _ => False) htables).trans h
            (fun _ _ => False.elim) (fun _ => False.elim) fun _ => Nat.le_of_succ_le
      refine (ensures_editTable t _).bind ?_
      rintro found _ ⟨st, table, ht, htake, rfl⟩
      rcases FdTable.take_eq_ok htake with ⟨rfl, rfl, -⟩ | ⟨entry, rfl, -, rfl⟩
      · exact hlater (by rw [Store.withTable_self ht])
      have hvacated : ∀ r, s.Enqueues (· = next)
          ((s.withTable t st (st.table.vacated next)).withReferences r) := fun r =>
        (Store.enqueues_vacated ht next).congr rfl
      refine (ensures_release entry).bind ?_
      rintro (_ | question) _ ⟨-, -, rfl⟩
      · refine (ih (next + 1)).mono fun _ _ h => ?_
        refine (hvacated _).trans h (fun a b ha hb => ?_) (fun _ he => Nat.le_of_eq he.symm)
          fun _ => Nat.le_of_succ_le
        rw [ha]
        exact hb
      · exact ensures_ask fun _ => (hvacated _).mono fun _ he => Nat.le_of_eq he.symm

theorem enqueues_sweepOn (t : TableId) (purpose : SweepPurpose) (entry : FdEntry)
    (remaining next : Nat) (failure : Option Error) :
    (sweepOn t purpose entry remaining next failure).Ensures s fun _ s' =>
      s.Enqueues (fun _ => True) s' := by
  have h : (sweep t purpose remaining next).Ensures s fun _ s' => s.Enqueues (fun _ => True) s' :=
    (enqueues_sweep t purpose remaining next).mono fun _ _ h => h.mono fun _ _ => trivial
  cases failure with
  | none => exact h
  | some e => exact (ensures_note _).bind_same fun _ => h

theorem enqueues_destroyTable (t : TableId) : (destroyTable t).Ensures s fun _ s' =>
    s.Enqueues (fun _ => True) s' := by
  refine (ensures_unlocked (Section.ensures_getTable t)).bind ?_
  rintro table _ ⟨-, rfl⟩
  exact (enqueues_sweep t .destroy _ 0).mono fun _ _ h => h.mono fun _ _ => trivial

theorem enqueues_dropTable (t : TableId) : (dropTable t).Ensures s fun _ s' =>
    s.Enqueues (fun _ => True) s' := by
  have hretire : Section.Ensures (do
      let table ← Section.getTable t
      Section.setTableState t (some ⟨table, false⟩)
      return table.capacity) s fun _ s' => s.Enqueues (fun _ => False) s' := by
    refine (Section.ensures_getTable t).bind ?_
    rintro _ _ ⟨⟨st, ht, rfl⟩, rfl⟩ capacity s' h
    cases h
    exact Store.enqueues_withState ht (List.append_nil _).symm .nil (List.forall_mem_nil _)
  refine (ensures_unlocked hretire).bind fun _ _ h => ?_
  exact (enqueues_sweep t .drop _ 0).mono fun _ _ h' =>
    h.trans h' (fun _ _ => False.elim) (fun _ => False.elim) fun _ _ => trivial

theorem enqueues_createTable (capacity : Nat) : (createTable capacity).Ensures s fun _ s' =>
    s.Enqueues (fun _ => True) s' := by
  intro k result k' hk h
  by_cases hc : Limits.maxCapacity < capacity
  · rw [createTable, FdTable.withCapacity, if_pos hc] at h
    cases h
    exact hk ▸ Store.enqueues_of_tables rfl
  · rw [createTable, FdTable.withCapacity, if_neg hc] at h
    cases h
    have hfree : (FdTable.ofCapacity capacity).free.Pairwise (· < ·) := List.pairwise_lt_range
    exact hk ▸ s.enqueues_withNewTable hfree

theorem enqueues_closeFile (t : TableId) (fd : Nat) : (closeFile t fd).Ensures s fun _ s' =>
    s.Enqueues (fun _ => True) s' := by
  refine (ensures_closing t fd).mono fun _ _ h => ?_
  cases h with
  | refused => exact Store.enqueues_of_tables rfl
  | shared ht | vacated ht =>
      exact ((Store.enqueues_vacated ht fd).mono fun _ _ => trivial).congr rfl
  | asks ht => exact (Store.enqueues_withSlot ht fd .closing).congr rfl

theorem enqueues_closed (t : TableId) (fd : Nat) (entry : FdEntry) (failure : Option Error) :
    (closed t fd entry failure).Ensures s fun _ s' => s.Enqueues (fun _ => True) s' := by
  refine (ensures_closed t fd entry failure).mono fun _ _ h => ?_
  cases h with
  | vacated ht => exact (Store.enqueues_vacated ht fd).mono fun _ _ => trivial
  | @restored st old r e ht =>
      exact (Store.enqueues_withSlot ht fd (.opened entry)).congr rfl

/-- An operation on an open file leaves the tables. -/
theorem tables_transfer (t : TableId) (fd : Nat) (op : Transfer) :
    (transfer t fd op).Ensures s fun _ s' => s'.tables = s.tables := by
  refine (ensures_permitted t fd op.permission).bind ?_
  rintro (e | entry) s' ⟨rfl, -⟩
  · exact ensures_pure rfl
  dsimp only
  cases entry.descriptor.record.driver with
  | external driver => exact ensures_ask fun _ => rfl
  | directory v =>
      cases op with
      | readdir =>
          cases entry.descriptor.handle with
          | external n => exact ensures_pure rfl
          | directory serial =>
              refine (ensures_holding _ (ensures_advance v serial)).bind fun result s'' h => ?_
              cases h <;> exact ensures_pure rfl
      | _ => exact ensures_pure rfl

/-- A call on files and tables that opens no file and copies no table. -/
theorem enqueues_perform {call : Call} (hmounts : (Job.begin call).mounts = false)
    (hopening : (Job.begin call).opening? = none)
    (hcopy : ∀ t budget, call ≠ .copyTable t budget) :
    (perform call).Ensures s fun _ s' => s.Enqueues (fun _ => True) s' := by
  cases call with
  | query q =>
      exact (ensures_query q).bind_same fun _ => ensures_pure (Store.enqueues_of_tables rfl)
  | createTable capacity =>
      exact (enqueues_createTable capacity).bind fun _ _ h => ensures_pure h
  | copyTable t budget => exact absurd rfl (hcopy t budget)
  | destroyTable t => exact enqueues_destroyTable t
  | dropTable t => exact enqueues_dropTable t
  | «open» v t path flags mode => cases hopening
  | close t fd => exact enqueues_closeFile t fd
  | transfer t fd op => exact (tables_transfer t fd op).mono fun _ _ => Store.enqueues_of_tables
  | _ => cases hmounts

/-- A call on files and tables that goes on, but not to open a file. -/
theorem enqueues_resume {frame : Frame} {reply : Reply} (hv : frame.Valid s)
    (hmounts : frame.table?.isNone = false) (hopening : (Job.resume frame reply).opening? = none) :
    (resume frame reply).Ensures s fun _ s' => s.Enqueues (fun _ => True) s' := by
  cases frame with
  | opening t path record flags mode => cases hopening
  | abandoning t path =>
      refine (ensures_abandoning t path reply).mono ?_
      rintro _ _ ⟨-, rfl⟩
      exact Store.enqueues_of_tables rfl
  | closing t fd entry =>
      cases reply with
      | failed e => exact enqueues_closed t fd entry (some e)
      | _ => exact enqueues_closed t fd entry none
  | sweeping t purpose entry remaining next =>
      cases reply with
      | failed e => exact enqueues_sweepOn t purpose entry remaining next (some e)
      | _ => exact enqueues_sweepOn t purpose entry remaining next none
  | unwinding t entry rest => exact hv.elim
  | transferring t op =>
      have hproceed : (proceed (.transferring t op) reply).Ensures s fun _ s' =>
          s.Enqueues (fun _ => True) s' := by
        rw [proceed]
        cases op.answer? reply with
        | some answer => exact ensures_pure (Store.enqueues_of_tables rfl)
        | none => exact ensures_throw _
      cases reply with
      | failed e => exact ensures_pure (Store.enqueues_of_tables rfl)
      | _ => exact hproceed
  | _ => cases hmounts

end Action

end VirtualFs
