import VirtualFs.Proofs.Descriptor.Clearing
import VirtualFs.Proofs.Kernel.Provenance

/-!
# Copies of a table

A copy of a table has its open slots, with the same entries under the same numbers, and one
reference more is taken to each of their descriptors.  All its other slots are free, also those
whose files are just being closed, and its queue is not that of the table: the numbers come in
ascending order.  Where the budget does not reach to the last slot, what was taken is given back,
and all is as it was.

* `FdTable.Fills.front`: files that are opened one after the other take the numbers in the order of
  the queue.
* `Store.Copies`, `Happens.duplicates`: what a copy is, and what comes of a step that makes one.
* `copies_share_or_fail`: every step of every run.
-/

namespace VirtualFs

namespace FdTable

/-- Entry after entry is put into the table, and comes into the slots of these numbers. -/
inductive Fills : FdTable → List Nat → FdTable → Prop
  | nil (t : FdTable) : Fills t [] t
  | cons {t t' t'' : FdTable} {entry : FdEntry} {fd : Nat} {fds : List Nat}
      (h : t.install entry = .ok (.ok (fd, t'))) (hrest : Fills t' fds t'') :
      Fills t (fd :: fds) t''

/-- **The queue says which slots are filled next.** -/
theorem Fills.front {t t' : FdTable} {fds : List Nat} (h : t.Fills fds t') : fds <+: t.free := by
  induction h with
  | nil t => exact List.nil_prefix
  | cons h _ ih =>
    obtain ⟨⟨rest, hfree⟩, -, rfl⟩ := install_eq_ok h
    rw [hfree, List.cons_prefix_cons]
    refine ⟨rfl, ?_⟩
    rwa [installed, hfree] at ih

end FdTable

/-- **The store with a copy** of a table in the state `st`. -/
structure Store.Copies (s : Store) (st : TableState) (copy : FdTable) (s' : Store) : Prop where
  /-- The copy is a new table, and nothing else has changed but references. -/
  store : s' = (s.withNewTable copy).withReferences s'.references
  capacity : copy.capacity = st.table.capacity
  slots : ∀ fd : Nat, copy.slots[fd]? = st.table.slots[fd]?.map Slot.shared
  ascending : copy.free.Pairwise (· < ·)
  queued : ∀ fd : Nat, fd ∈ copy.free ↔ copy.slots[fd]? = some .free
  /-- Files that are opened in the copy take the numbers in ascending order. -/
  fills : ∀ fds table, copy.Fills fds table → fds <+: copy.free
  /-- There is one reference more to every descriptor that the table holds. -/
  shared : ∀ {fd : Nat} {entry}, st.table.slots[fd]? = some (.opened entry) →
    s'.references.count entry.descriptor.id = s.references.count entry.descriptor.id + 1
  others : ∀ {id}, (∀ (fd : Nat) entry, st.table.slots[fd]? = some (.opened entry) →
    entry.descriptor.id ≠ id) → s'.references.count id = s.references.count id

/-- The slots of the copy are those of the new table. -/
theorem Store.Copies.slot? {s s' : Store} {st : TableState} {copy : FdTable}
    (h : s.Copies st copy s') (fd : Nat) : s'.slot? s.tables.size fd = copy.slots[fd]? := by
  rw [h.store]
  show (s.withNewTable copy).slot? s.tables.size fd = _
  rw [Store.slot?, tableState?_withNewTable, if_pos rfl, Option.bind_some]

/-- **What comes of copying a table** in the state `st`.  Nobody is asked anything. -/
inductive Moment.Duplicates (n : Moment) (budget : Option Nat) (st : TableState) : Prop
  /-- The budget does not reach to the last slot. -/
  | fails (hbudget : ∃ limit ∈ budget, limit < st.table.capacity)
      (hreturned : n.outcome = .returned (.error .noMemory))
      (hsame : n.after.kernel.store = n.before.kernel.store) : Duplicates n budget st
  | copies {copy : FdTable} (hbudget : ∀ limit ∈ budget, st.table.capacity ≤ limit)
      (hreturned : n.outcome = .returned (.ok (.table n.before.kernel.store.tables.size)))
      (hcopies : n.before.kernel.store.Copies st copy n.after.kernel.store) :
      Duplicates n budget st

/-- **No two slots of a table hold the same descriptor.** -/
theorem Provenance.distinct {past : List Moment} {m : Machine} {H : History} {C : List Closing}
    (k : Provenance past m) (b : Books H C m.kernel.store) {t : TableId} {st : TableState}
    (ht : m.kernel.store.tableState? t = some st) : st.table.Distinct := by
  intro i j e e' he he' hid
  rw [FdTable.opened?_eq_some] at he he'
  exact (k.same (Store.open_of_table ht he) (Store.open_of_table ht he')
    (b.ids (b.opened (Books.opens_pos ht he)) (b.opened (Books.opens_pos ht he')) hid)).1

/-- No two slots of a table hold files under the same handle. -/
theorem Provenance.distinct_handles {past : List Moment} {m : Machine} {H : History}
    {C : List Closing} (k : Provenance past m) (b : Books H C m.kernel.store) {t : TableId}
    {st : TableState} (ht : m.kernel.store.tableState? t = some st) {i j : Nat} {e e' : FdEntry}
    (he : st.table.opened? i = some e) (he' : st.table.opened? j = some e')
    (hhandle : e.descriptor.handle = e'.descriptor.handle) : i = j := by
  rw [FdTable.opened?_eq_some] at he he'
  exact (k.same (Store.open_of_table ht he) (Store.open_of_table ht he')
    (b.handles (b.opened (Books.opens_pos ht he)) (b.opened (Books.opens_pos ht he')) hhandle)).1

/-- A descriptor that a table refers to is in one of its slots only. -/
theorem FdTable.Distinct.refers_once {t : FdTable} (hd : t.Distinct) {fd : Nat} {entry : FdEntry}
    (hslot : t.slots[fd]? = some (.opened entry)) :
    t.slots.toList.countP (Slot.refers entry.descriptor.id) = 1 := by
  refine countP_refers_eq_one hslot (by simp [Slot.refers]) fun i slot hi hrefers => ?_
  cases slot with
  | opened other =>
    exact hd _ _ _ _ (opened?_eq_some.mpr hi) (opened?_eq_some.mpr hslot)
      (of_decide_eq_true hrefers)
  | free | closing => cases hrefers

namespace Action

variable {s : Store} {t : TableId} {st : TableState} {c : Copied} {r : References}

/-- **A copy that is complete** is a copy of the table. -/
theorem Copied.Mirrors.store_copies (m : c.Mirrors 0 st.table.slots.toList)
    (hc : c.complete = true)
    (hcount : ∀ id, r.count id = s.references.count id + c.slots.countP (Slot.refers id))
    (honce : ∀ {fd : Nat} {entry}, st.table.slots[fd]? = some (.opened entry) →
      st.table.slots.toList.countP (Slot.refers entry.descriptor.id) = 1) :
    s.Copies st ⟨c.slots.toArray, c.free, st.table.capacity⟩
      ((s.withNewTable ⟨c.slots.toArray, c.free, st.table.capacity⟩).withReferences r) := by
  have hrefers : ∀ id, c.slots.countP (Slot.refers id) =
      st.table.slots.toList.countP (Slot.refers id) := by
    intro id
    rw [m.slots_eq hc, List.countP_map]
    exact List.countP_congr fun slot _ => by rw [Function.comp_apply, Slot.refers_shared]
  refine ⟨rfl, rfl, fun fd => ?_, m.ascending, fun fd => ?_, fun _ _ h => h.front,
    fun {fd entry} hslot => ?_, fun {id} hnone => ?_⟩
  · simp [m.slots_eq hc]
  · simp [m.free]
  · exact (hcount _).trans (congrArg _ ((hrefers _).trans (honce hslot)))
  · refine (hcount id).trans (Nat.add_eq_left.mpr ((hrefers id).trans ?_))
    refine List.countP_eq_zero.mpr fun slot hmem hslot => ?_
    obtain ⟨fd, hfd⟩ := List.mem_iff_getElem?.mp hmem
    rw [Array.getElem?_toList] at hfd
    cases slot with
    | opened entry => exact hnone fd entry hfd (of_decide_eq_true hslot)
    | free | closing => cases hslot

end Action

/-- **A step that copies a table** makes a copy, or fails and changes nothing. -/
theorem Happens.duplicates {past : List Moment} {now : Moment} (h : Happens past now)
    (k : Provenance past now.before) {t : TableId} {budget : Option Nat}
    (he : now.event = .call (.copyTable t budget))
    (ht : now.before.kernel.store.isReachable t = true) :
    ∃ st, now.before.kernel.store.tableState? t = some st ∧ now.Duplicates budget st := by
  obtain ⟨H, r⟩ := h.before
  have b := r.sound.books
  obtain ⟨st, hst, -⟩ := Store.isReachable_iff.mp ht
  have hjob : now.before.job? now.event = some (.begin (.copyTable t budget), .direct) := by
    rw [he, Machine.job?]
    exact if_pos ht
  refine ⟨st, hst, ?_⟩
  rcases Action.yields_copyTable b r.sound.unlocked hst budget with
    ⟨hbudget, hy⟩ | ⟨copied, references, hbudget, hc, m, -, hcount, hy⟩
  · obtain ⟨hends, hstore⟩ := h.of_yields hjob hy
    rw [Option.any_eq_true] at hbudget
    obtain ⟨limit, hlimit, hlt⟩ := hbudget
    exact .fails ⟨limit, hlimit, of_decide_eq_true hlt⟩ hends.of_finished.1 hstore
  · obtain ⟨hends, hstore⟩ := h.of_yields hjob hy
    rw [Option.any_eq_false] at hbudget
    exact .copies (fun limit hlimit => Nat.le_of_not_lt (of_decide_eq_false (hbudget limit hlimit)))
      hends.of_finished.1
      (hstore ▸ m.store_copies hc hcount (k.distinct b hst).refers_once)

/-- **Every call that copies a table** fails exactly if its budget is smaller than the table, which
leaves everything as it was; or there is a copy, with the entries of the open slots under the same
numbers and one reference more to each, and with all other slots free, in ascending order.  No
driver is asked in either case, and the table itself stays as it is. -/
theorem copies_share_or_fail (word enableMask : Sync.Word) (events : List Event) :
    ∃ moments, (Machine.initial word enableMask).trace [] events = .ok moments ∧
      ∀ past now future t budget, moments = past ++ now :: future →
        now.event = .call (.copyTable t budget) →
        now.before.kernel.store.isReachable t = true →
        ∃ st, now.before.kernel.store.tableState? t = some st ∧ now.Duplicates budget st := by
  obtain ⟨moments, htrace, hmoments⟩ := Recalls.reached_asking Provenance.step word enableMask
    (.initial word enableMask) events
  refine ⟨moments, htrace, fun past now future t budget he hevent ht => ?_⟩
  obtain ⟨h, -, k, -⟩ := hmoments past now future he
  exact h.duplicates k hevent ht

end VirtualFs
