import Mathlib.Algebra.Order.BigOperators.Group.List
import Mathlib.Algebra.Order.Ring.Nat
import VirtualFs.Proofs.Descriptor.Table
import VirtualFs.Proofs.Kernel.Yields
import VirtualFs.Kernel.Tables

/-!
# Slots of all tables

The slots of all descriptor tables together, and how many of them hold a descriptor (`opens`).  A
table changes as a whole (`withState`), and a new one is added behind the others (`withNewTable`).

* `tableState?_withState`, `slot?_withSlot`, `opens_withState`, `opens_withNewTable`: what becomes
  of slots and holders.
* `opens_pos_iff`: a descriptor has a holder exactly if some open slot holds it.
* `yields_editTable`, `yields_tryEditTable`, `yields_editReferences`: sections on tables and counts
  come to what the edit comes to.
-/

namespace VirtualFs

namespace Store

variable {s : Store} {t : TableId} {st : TableState}

/-- A slot of a table that is not gone. -/
def slot? (s : Store) (t : TableId) (fd : Nat) : Option Slot :=
  (s.tableState? t).bind (·.table.slots[fd]?)

/-- The number of slots, of all tables that are not gone, that hold the descriptor. -/
def opens (s : Store) (d : Descriptor) : Nat :=
  (s.tables.toList.map fun state => (state.map (·.table.holders d)).getD 0).sum

/-- The store with another state of table `t`. -/
def withState (s : Store) (t : TableId) (state : Option TableState) : Store :=
  { s with tables := s.tables.setIfInBounds t state }

/-- The store with another table in the place of `t`, whose state is `st`. -/
def withTable (s : Store) (t : TableId) (st : TableState) (table : FdTable) : Store :=
  s.withState t (some { st with table := table })

/-- The store with one more table. -/
def withNewTable (s : Store) (table : FdTable) : Store :=
  { s with tables := s.tables.push (some ⟨table, true⟩) }

/-- The store with other reference counts. -/
def withReferences (s : Store) (r : References) : Store :=
  { s with references := r }

/-! ### States of tables -/

theorem tables_of_tableState? (h : s.tableState? t = some st) : s.tables[t]? = some (some st) := by
  rw [tableState?, Array.getD_eq_getD_getElem?] at h
  cases ht : s.tables[t]? with
  | none => rw [ht] at h; cases h
  | some state =>
      rw [ht] at h
      exact congrArg some h

theorem tableState?_withState (h : s.tableState? t = some st) (state : Option TableState)
    (u : TableId) :
    (s.withState t state).tableState? u = if u = t then state else s.tableState? u := by
  obtain ⟨hlt, -⟩ := Array.getElem?_eq_some_iff.mp (tables_of_tableState? h)
  rw [tableState?, tableState?, withState, Array.getD_eq_getD_getElem?,
    Array.getD_eq_getD_getElem?, Array.getElem?_setIfInBounds]
  by_cases hu : t = u
  · subst hu
    simp [hlt]
  · rw [if_neg hu, if_neg (Ne.symm hu)]

theorem tableState?_withState_self (h : s.tableState? t = some st) (state : Option TableState) :
    (s.withState t state).tableState? t = state := by
  rw [tableState?_withState h, if_pos rfl]

theorem slot?_congr {s' : Store} (h : s'.tables = s.tables) (t : TableId) (fd : Nat) :
    s'.slot? t fd = s.slot? t fd := by
  rw [slot?, slot?, tableState?, tableState?, h]

theorem slot?_withTable (h : s.tableState? t = some st) (table : FdTable) (u : TableId) (fd : Nat) :
    (s.withTable t st table).slot? u fd = if u = t then table.slots[fd]? else s.slot? u fd := by
  rw [slot?, slot?, withTable, tableState?_withState h]
  split <;> rfl

/-- Another slot of one table, and no other slot of any. -/
theorem slot?_withSlot (h : s.tableState? t = some st) {fd : Nat} {old new : Slot}
    (hslot : st.table.slots[fd]? = some old) {table : FdTable}
    (htable : table.slots = (st.table.withSlot fd new).slots) (u : TableId) (i : Nat) :
    (s.withTable t st table).slot? u i =
      if u = t ∧ i = fd then some new else s.slot? u i := by
  rw [slot?_withTable h, htable, FdTable.slots_withSlot hslot]
  by_cases hu : u = t
  · subst hu
    by_cases hi : i = fd
    · rw [if_pos rfl, if_pos hi, if_pos ⟨rfl, hi⟩]
    · rw [if_pos rfl, if_neg hi, if_neg fun h => hi h.2, slot?, h]
      rfl
  · rw [if_neg hu, if_neg fun h => hu h.1]

theorem withTable_withTable (s : Store) (t : TableId) (st : TableState) (a b : FdTable)
    (r : References) :
    ((s.withTable t st a).withReferences r).withTable t { st with table := a } b =
      (s.withTable t st b).withReferences r := by
  simp only [withTable, withState, withReferences, Array.setIfInBounds_setIfInBounds]

theorem tableState?_withNewTable (s : Store) (table : FdTable) (u : TableId) :
    (s.withNewTable table).tableState? u =
      if u = s.tables.size then some ⟨table, true⟩ else s.tableState? u := by
  rw [tableState?, tableState?, withNewTable, Array.getD_eq_getD_getElem?,
    Array.getD_eq_getD_getElem?, Array.getElem?_push]
  split <;> rfl

/-- A table that is there has a smaller number than the next one. -/
theorem lt_size_of_tableState? (h : s.tableState? t = some st) : t < s.tables.size :=
  (Array.getElem?_eq_some_iff.mp (tables_of_tableState? h)).1

/-! ### Holders -/

/-- A sum over a list with one other member. -/
theorem sum_map_set {α : Type} (f : α → Nat) {l : List α} {i : Nat} {a : α} (h : l[i]? = some a)
    (b : α) : ((l.set i b).map f).sum + f a = (l.map f).sum + f b := by
  induction l generalizing i with
  | nil => cases h
  | cons c l ih =>
      cases i with
      | zero =>
          cases h
          simp only [List.set_cons_zero, List.map_cons, List.sum_cons]
          omega
      | succ i =>
          have hrest := ih (i := i) (by simpa using h)
          simp only [List.set_cons_succ, List.map_cons, List.sum_cons]
          omega

theorem opens_withState (h : s.tableState? t = some st) (state : Option TableState)
    (d : Descriptor) : (s.withState t state).opens d + st.table.holders d =
      s.opens d + (state.map (·.table.holders d)).getD 0 := by
  have hmem : s.tables.toList[t]? = some (some st) := by
    simpa using tables_of_tableState? h
  rw [opens, opens, withState, Array.toList_setIfInBounds]
  exact sum_map_set (fun state => (state.map (·.table.holders d)).getD 0) hmem state

theorem opens_withNewTable (s : Store) (table : FdTable) (d : Descriptor) :
    (s.withNewTable table).opens d = s.opens d + table.holders d := by
  simp [opens, withNewTable]

/-- Another slot of one table. -/
theorem opens_withSlot (h : s.tableState? t = some st) {fd : Nat} {old : Slot}
    (hslot : st.table.slots[fd]? = some old) {table : FdTable} {new : Slot}
    (htable : table.slots = (st.table.withSlot fd new).slots) (d : Descriptor) :
    (s.withTable t st table).opens d + (if old.holds d then 1 else 0) =
      s.opens d + (if new.holds d then 1 else 0) := by
  have hstore := opens_withState h (some { st with table := table }) d
  have hslots := FdTable.holders_withSlot hslot new d
  have hsame : table.holders d = (st.table.withSlot fd new).holders d := by
    rw [FdTable.holders, FdTable.holders, htable]
  simp only [Option.map_some, Option.getD_some, hsame] at hstore
  rw [withTable]
  omega

/-- **A descriptor has holders** exactly if some open slot holds it. -/
theorem opens_pos_iff {d : Descriptor} : 0 < s.opens d ↔
    ∃ t fd entry, s.slot? t fd = some (.opened entry) ∧ entry.descriptor = d := by
  rw [opens, List.sum_pos_iff_exists_pos_nat]
  constructor
  · rintro ⟨n, hn, hpos⟩
    obtain ⟨state, hmem, rfl⟩ := List.mem_map.mp hn
    cases state with
    | none => exact absurd hpos (Nat.lt_irrefl 0)
    | some st =>
        obtain ⟨t, ht⟩ := List.mem_iff_getElem?.mp hmem
        rw [Array.getElem?_toList] at ht
        obtain ⟨fd, entry, hslot, hd⟩ := FdTable.holders_pos_iff.mp hpos
        have hstate : s.tableState? t = some st := by
          rw [tableState?, Array.getD_eq_getD_getElem?, ht]
          rfl
        exact ⟨t, fd, entry, Option.bind_eq_some_iff.mpr ⟨st, hstate, hslot⟩, hd⟩
  · rintro ⟨t, fd, entry, hslot, hd⟩
    obtain ⟨st, hstate, hslot⟩ := Option.bind_eq_some_iff.mp hslot
    have hmem : some st ∈ s.tables.toList :=
      List.mem_of_getElem? (by rw [Array.getElem?_toList]; exact tables_of_tableState? hstate)
    exact ⟨_, List.mem_map_of_mem hmem, FdTable.holders_pos_iff.mpr ⟨fd, entry, hslot, hd⟩⟩

end Store

/-! ### Sections on tables and counts -/

section

variable {α : Type} {s : Store} {t : TableId} {st : TableState} {cpu : Sync.Cpu LockId} {a : α}
  {table : FdTable}

theorem Section.getTable_eq (h : s.tableState? t = some st) :
    Section.getTable t s = .ok (st.table, s) :=
  Section.bind_eq rfl (Section.orUnknown_eq (by rw [Store.table?, h]; rfl) s)

theorem Section.setTable_eq (h : s.tableState? t = some st) (table : FdTable) :
    Section.setTable t table s = .ok ((), s.withTable t st table) :=
  Section.bind_eq rfl (Section.bind_eq (Section.orUnknown_eq h s) rfl)

namespace Action

theorem yields_onTable (hl : cpu.isLocked (.table t) = false) (h : s.tableState? t = some st)
    {read : FdTable → Checked α} (hread : read st.table = .ok a) :
    (onTable t read).Yields cpu s a s :=
  yields_locked hl (Section.bind_eq (Section.getTable_eq h) (Section.lift_eq hread s))

theorem yields_editTable (hl : cpu.isLocked (.table t) = false) (h : s.tableState? t = some st)
    {edit : FdTable → Checked (α × FdTable)} (hedit : edit st.table = .ok (a, table)) :
    (editTable t edit).Yields cpu s a (s.withTable t st table) := by
  refine yields_locked hl (Section.bind_eq (Section.getTable_eq h) ?_)
  exact Section.bind_eq (Section.lift_eq hedit s)
    (Section.bind_eq (Section.setTable_eq h table) rfl)

theorem yields_tryEditTable (hl : cpu.isLocked (.table t) = false) (h : s.tableState? t = some st)
    {edit : FdTable → Checked (Except Error (α × FdTable))}
    (hedit : edit st.table = .ok (.ok (a, table))) :
    (tryEditTable t edit).Yields cpu s (.ok a) (s.withTable t st table) := by
  refine yields_locked hl (Section.bind_eq (Section.getTable_eq h) ?_)
  exact Section.bind_eq (Section.lift_eq hedit s)
    (Section.bind_eq (Section.setTable_eq h table) rfl)

theorem yields_tryEditTable_error (hl : cpu.isLocked (.table t) = false)
    (h : s.tableState? t = some st) {edit : FdTable → Checked (Except Error (α × FdTable))}
    {e : Error} (hedit : edit st.table = .ok (.error e)) :
    (tryEditTable t edit).Yields cpu s (.error e) s := by
  refine yields_locked hl (Section.bind_eq (Section.getTable_eq h) ?_)
  exact Section.bind_eq (Section.lift_eq hedit s) rfl

theorem yields_editReferences {d : Descriptor} (hl : cpu.isLocked (.references d.id) = false)
    {edit : References → Checked (α × References)} {r : References}
    (hedit : edit s.references = .ok (a, r)) :
    (editReferences d edit).Yields cpu s a (s.withReferences r) :=
  yields_locked hl (Section.bind_eq rfl (Section.bind_eq (Section.lift_eq hedit s) rfl))

end Action

end

end VirtualFs
