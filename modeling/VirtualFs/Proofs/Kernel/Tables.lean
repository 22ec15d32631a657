import VirtualFs.Proofs.Kernel.Lands

/-!
# Making, copying and emptying tables

Every action on a table as a whole lands.  A copy holds the same descriptors as the original and
has taken a reference to each; a copy that fails gives every reference back, and since the
original still holds the files, none of them is closed.  A table is emptied slot by slot, and the
books agree at every driver that is asked to close.

* `yields_shareSlots`, `yields_unwind`: a copy takes references, and a failed one gives them back.
* `yields_copyTable`, `lands_copyTable`: copying a table.
* `lands_sweep`: emptying a table from some slot on, by induction on the slots that are left.
-/

namespace VirtualFs

/-- What a slot is in a copy of its table. -/
def Slot.shared : Slot → Slot
  | .opened entry => .opened entry
  | .free | .closing => .free

theorem Slot.shared_ne_closing (slot : Slot) : slot.shared ≠ .closing := by
  cases slot <;> exact Slot.noConfusion

theorem Slot.shared_eq_opened {slot : Slot} {entry : FdEntry} (h : slot.shared = .opened entry) :
    slot = .opened entry := by
  cases slot with
  | opened other => exact h
  | free => cases h
  | closing => cases h

theorem Slot.refers_shared (id : Nat) (slot : Slot) : slot.shared.refers id = slot.refers id := by
  cases slot <;> rfl

/-- A table that is put back as it was. -/
theorem Store.withTable_self {s : Store} {t : TableId} {st : TableState}
    (h : s.tableState? t = some st) : s.withTable t st st.table = s := by
  obtain ⟨hlt, hget⟩ := Array.getElem?_eq_some_iff.mp (Store.tables_of_tableState? h)
  rw [Store.withTable, Store.withState]
  have hset : s.tables.setIfInBounds t (some st) = s.tables := by
    rw [← hget, Array.setIfInBounds_def, dif_pos hlt, Array.set_getElem_self]
  rw [show ({ st with table := st.table } : TableState) = st from rfl, hset]

namespace Action

/-- The slots that were copied are the first of those to be copied, from number `fd` on, and the
free ones among them are queued in order. -/
structure Copied.Mirrors (fd : Nat) (slots : List Slot) (c : Copied) : Prop where
  copies : c.slots <+: slots.map Slot.shared
  complete : c.complete = true → c.slots.length = slots.length
  ascending : c.free.Pairwise (· < ·)
  free : ∀ i, i ∈ c.free ↔ ∃ j, i = fd + j ∧ c.slots[j]? = some .free

/-- The free slots from number `fd` on: the first, or those behind it. -/
theorem exists_offset_iff {fd i : Nat} {slot : Slot} {slots : List Slot} :
    (∃ j, i = fd + j ∧ (slot :: slots)[j]? = some .free) ↔
      (i = fd ∧ slot = .free) ∨ ∃ j, i = fd + 1 + j ∧ slots[j]? = some .free := by
  constructor
  · rintro ⟨j, rfl, hj⟩
    cases j with
    | zero => exact .inl ⟨rfl, by simpa using hj⟩
    | succ j => exact .inr ⟨j, by omega, by simpa using hj⟩
  · rintro (⟨rfl, rfl⟩ | ⟨j, rfl, hj⟩)
    · exact ⟨0, rfl, rfl⟩
    · exact ⟨j + 1, by omega, by simpa using hj⟩

namespace Copied.Mirrors

variable {fd : Nat} {slots : List Slot} {c : Copied}

theorem opened (m : c.Mirrors (fd + 1) slots) (entry : FdEntry) :
    Copied.Mirrors fd (.opened entry :: slots) { c with slots := .opened entry :: c.slots } where
  copies := List.cons_prefix_cons.mpr ⟨rfl, m.copies⟩
  complete hc := congrArg Nat.succ (m.complete hc)
  ascending := m.ascending
  free i := by
    rw [exists_offset_iff, m.free]
    simp

theorem free_cons (m : c.Mirrors (fd + 1) slots) {slot : Slot} (h : slot.shared = .free) :
    Copied.Mirrors fd (slot :: slots)
      { c with slots := .free :: c.slots, free := fd :: c.free } where
  copies := List.cons_prefix_cons.mpr ⟨h.symm, m.copies⟩
  complete hc := congrArg Nat.succ (m.complete hc)
  ascending := by
    refine List.pairwise_cons.mpr ⟨fun i hi => ?_, m.ascending⟩
    obtain ⟨j, rfl, -⟩ := (m.free i).mp hi
    omega
  free i := by
    rw [exists_offset_iff, List.mem_cons, m.free]
    simp

/-- A copy that is complete has all slots. -/
theorem slots_eq (m : c.Mirrors fd slots) (hc : c.complete = true) :
    c.slots = slots.map Slot.shared :=
  m.copies.eq_of_length ((m.complete hc).trans (List.length_map _).symm)

/-- What is copied of an open slot was in it. -/
theorem mem_of_opened (m : c.Mirrors fd slots) {entry : FdEntry}
    (h : Slot.opened entry ∈ c.slots) : Slot.opened entry ∈ slots := by
  obtain ⟨slot, hmem, hshared⟩ := List.mem_map.mp (m.copies.subset h)
  exact Slot.shared_eq_opened hshared ▸ hmem

end Copied.Mirrors

variable {cpu : Sync.Cpu LockId} {H : History} {C : List Closing} {s : Store} {t : TableId}
  {st : TableState}

/-! ### Making -/

/-- **Making a table.** -/
theorem lands_createTable (b : Books H C s) (k : s.Served) (capacity : Nat) :
    Lands (do return .finished ((← createTable capacity).map .table)) cpu H C none s := by
  by_cases hc : Limits.maxCapacity < capacity
  · have hy : (createTable capacity).Yields cpu s (.error .invalidArgument) s := by
      refine yields_unlocked ?_
      rw [FdTable.withCapacity, if_pos hc]
      rfl
    exact .bind_same hy (lands_pure b k _)
  · have hy : (createTable capacity).Yields cpu s (.ok s.tables.size)
        (s.withNewTable (FdTable.ofCapacity capacity)) := by
      refine yields_unlocked ?_
      rw [FdTable.withCapacity, if_neg hc]
      rfl
    refine .bind hy (s.spares_withNewTable _)
      (lands_pure (s := s.withNewTable _) ?_ (k.congr rfl) _)
    have hzero := FdTable.holders_ofCapacity capacity
    refine b.newTable (FdTable.regular_ofCapacity capacity) (fun fd hfd => ?_) (fun d hd => ?_)
      (r := s.references) (fun {d} _ => ?_) rfl
    · simp only [FdTable.ofCapacity, Array.getElem?_replicate] at hfd
      split at hfd <;> cases hfd
    · rw [hzero d] at hd
      exact absurd hd (Nat.lt_irrefl 0)
    · rw [hzero d]
      rfl

/-! ### Copying -/

/-- **Copying slots** takes one reference for every open one, as far as the budget reaches. -/
theorem yields_shareSlots (hl : ∀ id, cpu.isLocked (.references id) = false) {budget : Option Nat}
    {fd : Nat} (hbudget : budget.any (· < fd) = false) {slots : List Slot}
    (hslots : ∀ entry, Slot.opened entry ∈ slots →
      0 < s.references.count entry.descriptor.id) :
    ∃ copied r, (shareSlots budget fd slots).Yields cpu s copied (s.withReferences r) ∧
      copied.Mirrors fd slots ∧ copied.complete = ! budget.any (· < fd + slots.length) ∧
      r.next = s.references.next ∧
      ∀ id, r.count id = s.references.count id + copied.slots.countP (Slot.refers id) := by
  induction slots generalizing fd s with
  | nil =>
      exact ⟨⟨[], [], true⟩, s.references, yields_pure _,
        ⟨List.prefix_rfl, fun _ => rfl, .nil, by simp⟩, by simp [hbudget], rfl, fun _ => rfl⟩
  | cons slot slots ih =>
      rw [shareSlots.eq_def]
      dsimp only
      by_cases hreached : budget.any (· ≤ fd) = true
      · rw [if_pos hreached]
        have hshort : budget.any (· < fd + (slot :: slots).length) = true := by
          cases budget with
          | none => cases hreached
          | some n =>
            exact decide_eq_true (Nat.lt_of_le_of_lt (of_decide_eq_true hreached) (by simp))
        exact ⟨⟨[], [], false⟩, s.references, yields_pure _,
          ⟨List.nil_prefix, (fun hc => by cases hc), .nil, by simp⟩, by rw [hshort]; rfl, rfl,
          fun _ => rfl⟩
      rw [if_neg hreached]
      have hbudget' : budget.any (· < fd + 1) = false := by
        simpa [Nat.lt_succ_iff] using hreached
      have hlength : fd + 1 + slots.length = fd + (slot :: slots).length := by
        rw [List.length_cons]
        omega
      have hrest : ∀ entry, Slot.opened entry ∈ slots →
          0 < s.references.count entry.descriptor.id :=
        fun entry hmem => hslots entry (List.mem_cons_of_mem _ hmem)
      cases slot with
      | opened entry =>
          have hpos := hslots entry List.mem_cons_self
          have hmore := References.count_more_id (References.lt_next hpos)
          have hacquire : (editReferences entry.descriptor fun r => do
              return ((), ← r.acquire entry.descriptor)).Yields cpu s ()
              (s.withReferences (s.references.more entry.descriptor)) := by
            refine yields_editReferences (hl _) ?_
            rw [References.acquire_eq hpos]
            rfl
          obtain ⟨more, r, hy, m, hcomplete, hnext, hcount⟩ :=
            ih (s := s.withReferences (s.references.more entry.descriptor)) hbudget' fun e hmem =>
              Nat.lt_of_lt_of_eq (Nat.lt_of_lt_of_le (hrest e hmem) (Nat.le_add_right _ _))
                (hmore e.descriptor.id).symm
          refine ⟨_, r, hacquire.bind (hy.bind (yields_pure _)), m.opened entry,
            hlength ▸ hcomplete, hnext.trans (References.next_more _ _), fun id => ?_⟩
          rw [hcount id, List.countP_cons]
          show (s.references.more entry.descriptor).count id + _ = _
          rw [hmore id]
          simp only [Slot.refers, decide_eq_true_eq]
          omega
      | free =>
          obtain ⟨more, r, hy, m, hcomplete, hnext, hcount⟩ := ih hbudget' hrest
          exact ⟨_, r, hy.bind (yields_pure _), m.free_cons rfl, hlength ▸ hcomplete, hnext, hcount⟩
      | closing =>
          obtain ⟨more, r, hy, m, hcomplete, hnext, hcount⟩ := ih hbudget' hrest
          exact ⟨_, r, hy.bind (yields_pure _), m.free_cons rfl, hlength ▸ hcomplete, hnext, hcount⟩

/-- **A failed copy** gives back what it has taken: the original still holds every file, so no
driver is asked to close one. -/
theorem yields_unwind (hl : ∀ id, cpu.isLocked (.references id) = false) (held : Nat → Nat)
    {slots : List Slot} (hslots : ∀ entry, Slot.opened entry ∈ slots → 0 < held entry.descriptor.id)
    (hcount : ∀ id, s.references.count id = held id + slots.countP (Slot.refers id)) :
    ∃ r, (unwind t slots).Yields cpu s (.failed .noMemory) (s.withReferences r) ∧
      r.next = s.references.next ∧ ∀ id, r.count id = held id := by
  induction slots generalizing s with
  | nil => exact ⟨s.references, yields_pure _, rfl, hcount⟩
  | cons slot slots ih =>
      have hrest : ∀ entry, Slot.opened entry ∈ slots → 0 < held entry.descriptor.id :=
        fun entry hmem => hslots entry (List.mem_cons_of_mem _ hmem)
      cases slot with
      | opened entry =>
          have hpos := hslots entry List.mem_cons_self
          have htwo : 1 < s.references.count entry.descriptor.id := by
            rw [hcount, List.countP_cons_of_pos (by simp [Slot.refers])]
            omega
          have hone : 0 < s.references.count entry.descriptor.id := Nat.lt_of_succ_lt htwo
          have hrelease : (releaseReference entry).Yields cpu s none
              (s.withReferences (s.references.less entry.descriptor)) := by
            rcases References.release_cases hone with ⟨hlast, -⟩ | ⟨-, hrelease⟩
            · exact absurd hlast (Nat.ne_of_gt htwo)
            · have hy : (editReferences entry.descriptor fun r => r.release entry.descriptor).Yields
                  cpu s .shared _ := yields_editReferences (hl _) hrelease
              exact hy.bind (yields_pure none)
          obtain ⟨r, hy, hnext, hr⟩ :=
            ih (s := s.withReferences (s.references.less entry.descriptor)) hrest fun id => by
              refine (References.count_less_id (References.lt_next hone) id).trans ?_
              rw [hcount id, List.countP_cons]
              simp only [Slot.refers, decide_eq_true_eq]
              omega
          exact ⟨r, hrelease.bind hy, hnext.trans (References.next_less _ _), hr⟩
      | free => exact ih hrest fun id => hcount id
      | closing => exact ih hrest fun id => hcount id

/-- A copy that is complete is a regular table. -/
theorem Copied.Mirrors.regular {slots : List Slot} {c : Copied} (m : c.Mirrors 0 slots)
    (hc : c.complete = true) {capacity : Nat} (hcapacity : slots.length = capacity) :
    FdTable.Regular ⟨c.slots.toArray, c.free, capacity⟩ where
  size := by
    rw [List.size_toArray, m.complete hc, hcapacity]
  nodup := m.ascending.imp Nat.ne_of_lt
  free i := by
    rw [m.free, List.getElem?_toArray]
    simp

/-- What an open slot of the table holds is held. -/
theorem opens_of_mem (ht : s.tableState? t = some st) {entry : FdEntry}
    (hmem : Slot.opened entry ∈ st.table.slots.toList) : 0 < s.opens entry.descriptor := by
  obtain ⟨fd, hfd⟩ := List.mem_iff_getElem?.mp hmem
  rw [Array.getElem?_toList] at hfd
  exact Books.opens_pos ht hfd

/-- **A copy that is complete is in the books**, with the references that were taken for it. -/
theorem Copied.Mirrors.books {c : Copied} (m : c.Mirrors 0 st.table.slots.toList)
    (hc : c.complete = true) (b : Books H C s) (ht : s.tableState? t = some st) {r : References}
    (hnext : r.next = s.references.next) (hcount : ∀ id,
      r.count id = s.references.count id + c.slots.countP (Slot.refers id)) :
    Books H C ((s.withNewTable ⟨c.slots.toArray, c.free, st.table.capacity⟩).withReferences r) := by
  have hinstalled : ∀ {entry}, Slot.opened entry ∈ c.slots → H.installed entry.descriptor :=
    fun hmem => b.opened (opens_of_mem ht (m.mem_of_opened hmem))
  refine b.newTable (m.regular hc (b.regular ht).size) (fun fd hfd => ?_) (fun d hd => ?_)
    (fun {d} hd => (hcount d.id).trans ?_) hnext
  · rw [List.getElem?_toArray] at hfd
    obtain ⟨slot, -, hshared⟩ := List.mem_map.mp (m.copies.subset (List.mem_of_getElem? hfd))
    exact slot.shared_ne_closing hshared
  · obtain ⟨fd, entry, hslot, rfl⟩ := FdTable.holders_pos_iff.mp hd
    rw [List.getElem?_toArray] at hslot
    exact opens_of_mem ht (m.mem_of_opened (List.mem_of_getElem? hslot))
  -- a number is that of one descriptor only
  · refine congrArg (s.references.count d.id + ·) (List.countP_congr fun slot hmem => ?_)
    cases slot with
    | opened entry =>
        simp only [Slot.refers, Slot.holds, decide_eq_true_eq]
        exact ⟨b.ids (hinstalled hmem) hd, congrArg Descriptor.id⟩
    | free | closing => exact Iff.rfl

/-- **Copying a table**: it comes to a table more, for which a reference has been taken for every
open slot; or the budget does not reach, and all is as it was. -/
theorem yields_copyTable (b : Books H C s) (hcpu : cpu.held = [])
    (ht : s.tableState? t = some st) (budget : Option Nat) :
    (budget.any (· < st.table.capacity) = true ∧
      (copyTable t budget).Yields cpu s (.failed .noMemory) s) ∨
    ∃ (copied : Copied) (r : References), budget.any (· < st.table.capacity) = false ∧
      copied.complete = true ∧
      copied.Mirrors 0 st.table.slots.toList ∧ r.next = s.references.next ∧
      (∀ id, r.count id = s.references.count id + copied.slots.countP (Slot.refers id)) ∧
      (copyTable t budget).Yields cpu s (.succeeded (.table s.tables.size))
        ((s.withNewTable ⟨copied.slots.toArray, copied.free, st.table.capacity⟩).withReferences
          r) := by
  have hheld : ∀ entry, Slot.opened entry ∈ st.table.slots.toList →
      0 < s.references.count entry.descriptor.id := by
    intro entry hmem
    have hpos := opens_of_mem ht hmem
    exact (b.counted (b.opened hpos)).symm ▸ hpos
  obtain ⟨copied, r, hy, m, hcomplete, hnext, hcount⟩ := yields_shareSlots
    (show ∀ id, (cpu.acquire (.table t)).isLocked (.references id) = false from fun id =>
      isLocked_acquire (isLocked_of_held hcpu _) LockId.noConfusion)
    (show budget.any (· < 0) = false by cases budget <;> simp) hheld
  rw [Nat.zero_add, Array.length_toList, (b.regular ht).size] at hcomplete
  have hcopy : (holding (.table t) do
      let table ← unlocked (Section.getTable t)
      return (table.capacity, ← shareSlots budget 0 table.slots.toList)).Yields cpu s
      (st.table.capacity, copied) (s.withReferences r) := by
    refine yields_holding (isLocked_of_held hcpu _) ?_
    exact (yields_unlocked (Section.getTable_eq ht)).bind (hy.bind (yields_pure _))
  rw [copyTable]
  cases hbudget : budget.any (· < st.table.capacity) with
  | false =>
      rw [hbudget, Bool.not_false] at hcomplete
      refine .inr ⟨copied, r, rfl, hcomplete, m, hnext, hcount, hcopy.bind ?_⟩
      dsimp only
      rw [if_pos hcomplete]
      exact yields_unlocked rfl
  | true =>
      rw [hbudget, Bool.not_true] at hcomplete
      -- the original still holds what was copied, so no reference that goes back is the last
      obtain ⟨r', hy', hnext', hcount'⟩ := yields_unwind (t := t) (s := s.withReferences r)
        (fun id => isLocked_of_held hcpu _) s.references.count
        (fun entry hmem => hheld entry (m.mem_of_opened hmem)) hcount
      obtain rfl : r' = s.references := References.eq_of_count (hnext'.trans hnext) hcount'
      refine .inl ⟨rfl, hcopy.bind ?_⟩
      dsimp only
      rw [if_neg (by rw [hcomplete]; exact Bool.false_ne_true)]
      exact hy'

/-- **Copying a table.** -/
theorem lands_copyTable (b : Books H C s) (k : s.Served) (hcpu : cpu.held = [])
    (ht : s.tableState? t = some st) (budget : Option Nat) :
    (copyTable t budget).Lands cpu H C none s := by
  rcases yields_copyTable b hcpu ht budget with ⟨-, hy⟩ | ⟨copied, r, -, hc, m, hnext, hcount, hy⟩
  · exact lands_finished hy b k (.refl none s)
  · exact lands_finished hy (m.books hc b ht hnext hcount) (k.congr rfl)
      ((Store.spares_withNewTable s _).withReferences r)

end Action

/-! ### Emptying -/

namespace SweepPurpose

/-- Of a table that is emptied to be forgotten, nothing is promised. -/
def excepts (t : TableId) : SweepPurpose → Option TableId
  | .destroy => none
  | .drop => some t

variable {st : TableState} {next : Nat} {purpose : SweepPurpose}

theorem Reaches.reachable_or (h : purpose.Reaches next st) (t : TableId) :
    st.reachable = true ∨ purpose.excepts t = some t := by
  cases purpose with
  | destroy => exact .inl h
  | drop => exact .inr rfl

/-- A slot that was open is given up. -/
theorem Reaches.vacated (h : purpose.Reaches next st) {old : Slot}
    (hslot : st.table.slots[next]? = some old) :
    purpose.Reaches (next + 1) { st with table := st.table.vacated next } := by
  cases purpose with
  | destroy => exact h
  | drop =>
      obtain ⟨hr, hfree, hclosing⟩ := h
      refine ⟨hr, fun fd hfd => ?_, fun fd => ?_⟩
      · rw [FdTable.slots_vacated hslot]
        split
        · rfl
        · exact hfree fd (by omega)
      · rw [FdTable.slots_vacated hslot]
        split
        · simp
        · exact hclosing fd

/-- A slot that is not open is passed over. -/
theorem Reaches.passed (h : purpose.Reaches next st) {old : Slot}
    (hslot : st.table.slots[next]? = some old)
    (hold : ∀ entry, st.table.slots[next]? ≠ some (.opened entry)) :
    purpose.Reaches (next + 1) st := by
  cases purpose with
  | destroy => exact h
  | drop =>
      obtain ⟨hr, hfree, hclosing⟩ := h
      refine ⟨hr, fun fd hfd => ?_, hclosing⟩
      rcases Nat.lt_succ_iff_lt_or_eq.mp hfd with hfd | rfl
      · exact hfree fd hfd
      · cases old with
        | free => exact hslot
        | opened entry => exact absurd hslot (hold entry)
        | closing => exact absurd hslot (hclosing fd)

end SweepPurpose

namespace Action

variable {cpu : Sync.Cpu LockId} {H : History} {C : List Closing} {s : Store} {t : TableId}
  {st : TableState}

/-- All slots have been passed, and a table that is to be forgotten is. -/
theorem lands_swept (b : Books H C s) (k : s.Served) (ht : s.tableState? t = some st)
    {purpose : SweepPurpose} (hp : purpose.Reaches st.table.capacity st) :
    (swept t purpose).Lands cpu H C (purpose.excepts t) s := by
  cases purpose with
  | destroy => exact lands_pure b k _
  | drop =>
      obtain ⟨-, hfree, -⟩ := hp
      refine lands_finished (r := .ok .done) (yields_unlocked rfl)
        (b.forget ht fun fd slot hslot => ?_) (k.congr rfl) (Store.spares_withState ht none)
      have hlt := FdTable.lt_size hslot
      rw [(b.regular ht).size] at hlt
      rw [hfree fd hlt] at hslot
      exact (Option.some.inj hslot).symm

/-- The reference of a slot that was given up is released.  A driver is asked only for the last, and
only one from outside. -/
theorem yields_releaseReference (b : Books H C s) (hcpu : cpu.held = [])
    (ht : s.tableState? t = some st) {fd : Nat} {entry : FdEntry}
    (hslot : st.table.slots[fd]? = some (.opened entry)) (table : FdTable) :
    ∃ question, (releaseReference entry).Yields cpu (s.withTable t st table) question
        ((s.withTable t st table).withReferences (s.references.less entry.descriptor)) ∧
      ((question = none ∧ (s.opens entry.descriptor = 1 → H.given entry.descriptor.handle →
        H.asked entry.descriptor.handle)) ∨
      ∃ driver, question = some (.close driver entry.descriptor.handle) ∧
        (∃ n < s.nextHandle, entry.descriptor.handle = .external n) ∧
        s.opens entry.descriptor = 1) := by
  have hinstalled := b.opened (Books.opens_pos ht hslot)
  obtain ⟨outcome, hrelease, hlast⟩ := yields_release b hcpu ht hslot table
  rw [releaseReference]
  cases outcome with
  | shared =>
      refine ⟨none, hrelease.bind (yields_pure none), .inl ⟨rfl, fun hone => ?_⟩⟩
      cases hlast.mpr hone
  | last =>
      cases hdriver : entry.descriptor.record.driver with
      | directory v =>
          obtain ⟨n, -, hhandle, -⟩ := b.handle_of_directory hinstalled hdriver
          refine ⟨none, hrelease.bind ?_, .inl ⟨rfl, fun _ hg => ?_⟩⟩
          · exact yields_pure none
          · exact absurd (hhandle ▸ hg) (b.not_given_directory n)
      | external driver =>
          refine ⟨some (.close driver entry.descriptor.handle), hrelease.bind ?_,
            .inr ⟨driver, rfl, b.handle_of_external hinstalled hdriver, hlast.mp rfl⟩⟩
          exact yields_pure _

/-- **Emptying a table** from slot `next` on.  The calls on the table that a driver makes meanwhile
do not matter: only a table out of reach has to be free up to there. -/
theorem lands_sweep (b : Books H C s) (k : s.Served) (hcpu : cpu.held = [])
    (purpose : SweepPurpose) {remaining next : Nat} (ht : s.tableState? t = some st)
    (hsize : next + remaining = st.table.capacity) (hp : purpose.Reaches next st) :
    (sweep t purpose remaining next).Lands cpu H C (purpose.excepts t) s := by
  induction remaining generalizing s st next with
  | zero =>
      rw [sweep]
      rw [Nat.add_zero] at hsize
      exact lands_swept b k ht (hsize ▸ hp)
  | succ remaining ih =>
      have hl := isLocked_of_held hcpu (.table t)
      have hnext : next < st.table.slots.size := by
        rw [(b.regular ht).size]
        omega
      have hslot := Array.getElem?_eq_getElem hnext
      have hsize' : next + 1 + remaining = st.table.capacity := by omega
      rw [sweep]
      rcases FdTable.take_cases hslot with ⟨htake, hold⟩ | ⟨entry, hopen, htake⟩
      · have hy : (editTable t fun table => table.take next).Yields cpu s none
            (s.withTable t st st.table) := yields_editTable hl ht htake
        rw [Store.withTable_self ht] at hy
        exact .bind_same hy (ih b k ht hsize' (hp.passed hslot hold))
      · have hy : (editTable t fun table => table.take next).Yields cpu s (some entry)
            (s.withTable t st (st.table.vacated next)) := yields_editTable hl ht htake
        obtain ⟨question, hrelease, hquestion⟩ :=
          yields_releaseReference b hcpu ht hopen (st.table.vacated next)
        have hspares : s.Spares (purpose.excepts t) (s.withTable t st (st.table.vacated next)) :=
          Store.spares_withTable ht (hp.reachable_or t) rfl
        have hspares' := (Store.Spares.refl (purpose.excepts t)
          (s.withTable t st (st.table.vacated next))).withReferences
            (s.references.less entry.descriptor)
        have ht' := Store.tableState?_withState_self ht
          (some { st with table := st.table.vacated next })
        refine .bind hy hspares (.bind hrelease hspares' ?_)
        rcases hquestion with ⟨rfl, hasked⟩ | ⟨driver, rfl, hgiven, hone⟩
        · exact ih (b.letGo ht hopen hasked) (k.congr rfl) ht' hsize' (hp.vacated hopen)
        · have hunspent := b.unspent (Books.opens_pos ht hopen)
          refine lands_spending driver _ (yields_ask _ _) (b.discard ht hopen hone hgiven)
            (k.congr rfl) (.refl _ _) ⟨_, ht', hsize', hp.vacated hopen⟩ rfl (fun u hu => ?_)
            ⟨_, rfl, hunspent, .inl rfl⟩
          cases purpose with
          | destroy => cases hu
          | drop => exact hu

/-- **Emptying goes on**, whatever the driver has answered. -/
theorem lands_sweepOn (b : Books H C s) (k : s.Served) (hcpu : cpu.held = [])
    {purpose : SweepPurpose} {entry : FdEntry} {remaining next : Nat}
    (hv : (Frame.sweeping t purpose entry remaining next).Valid s) (failure : Option Error) :
    (sweepOn t purpose entry remaining next failure).Lands cpu H C (purpose.excepts t) s := by
  obtain ⟨st, ht, hsize, hp⟩ := hv
  have hsweep := lands_sweep b k hcpu purpose ht hsize hp
  rw [sweepOn.eq_def]
  cases failure with
  | none => exact hsweep
  | some e => exact .bind_same (yields_note _) hsweep

/-- **Closing every file of a table.** -/
theorem lands_destroyTable (b : Books H C s) (k : s.Served) (hcpu : cpu.held = [])
    (ht : s.tableState? t = some st) (hr : st.reachable = true) :
    (destroyTable t).Lands cpu H C none s := by
  rw [destroyTable]
  exact .bind_same (yields_unlocked (Section.getTable_eq ht))
    (lands_sweep b k hcpu .destroy ht (Nat.zero_add _) hr)

/-- **Letting go of a table** from which no file is being closed. -/
theorem lands_dropTable (b : Books H C s) (k : s.Served) (hcpu : cpu.held = [])
    (ht : s.tableState? t = some st) (hidle : ∀ c ∈ C, c.table ≠ t) :
    (dropTable t).Lands cpu H C (some t) s := by
  have ht' := Store.tableState?_withState_self ht (some ⟨st.table, false⟩)
  have hclosing : ∀ fd : Nat, st.table.slots[fd]? ≠ some .closing := by
    intro fd hfd
    obtain ⟨c, hc, hct, -⟩ := (b.closing t fd).mp (Option.bind_eq_some_iff.mpr ⟨st, ht, hfd⟩)
    exact hidle c hc hct
  have hy : (unlocked do
      let table ← Section.getTable t
      Section.setTableState t (some ⟨table, false⟩)
      return table.capacity).Yields cpu s st.table.capacity
      (s.withState t (some ⟨st.table, false⟩)) :=
    yields_unlocked (Section.bind_eq (Section.getTable_eq ht) rfl)
  rw [dropTable]
  exact .bind hy (Store.spares_withState ht _)
    (lands_sweep (b.retire ht false) (k.congr rfl) hcpu .drop ht' (Nat.zero_add _)
      ⟨rfl, fun fd hfd => absurd hfd (Nat.not_lt_zero fd), hclosing⟩)

end Action

end VirtualFs
