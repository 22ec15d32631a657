import Mathlib.Data.List.Nodup
import Mathlib.Data.List.Perm.Subperm
import Mathlib.Tactic.Common
import VirtualFs.Descriptor.Table

/-!
# Regular tables

A descriptor table is `Regular` if its free slots are the queued ones, each queued once.  What the
operations on a table come to is said by two tables: `withSlot`, with another slot at a number, and
`vacated`, with a slot given up.

* `take_cases`, `install_cases`: what the operations with more than one end come to.
* `holders_withSlot`: another slot changes the number of slots that hold a descriptor by at most
  one.
* `Regular.used_eq`: there are no more free numbers than slots.
* `Regular.accounted`: the slots that are not queued are the taken ones.
-/

namespace VirtualFs

/-- The slot is open and holds the descriptor. -/
def Slot.holds (d : Descriptor) : Slot → Bool
  | .opened entry => entry.descriptor = d
  | .free | .closing => false

/-- The slot is open, and its descriptor has the number. -/
def Slot.refers (id : Nat) : Slot → Bool
  | .opened entry => entry.descriptor.id = id
  | .free | .closing => false

namespace FdTable

variable {t : FdTable} {fd : Nat} {old : Slot} {entry : FdEntry}

/-- What is true of a table at every moment. -/
structure Regular (t : FdTable) : Prop where
  size : t.slots.size = t.capacity
  nodup : t.free.Nodup
  free : ∀ fd, fd ∈ t.free ↔ t.slots[fd]? = some .free

/-- The slots of a table are as many as its capacity says, those that are free are queued once, and
the others count as taken. -/
structure Accounted (t : FdTable) : Prop where
  size : t.slots.size = t.capacity
  queued : ∀ fd, t.free.count fd = if t.slots[fd]? = some .free then 1 else 0
  used : t.used = .ok (t.slots.toList.countP fun slot => ! decide (slot = .free))
  bounded : (t.slots.toList.countP fun slot => ! decide (slot = .free)) ≤ t.capacity

/-- The number of slots that hold the descriptor. -/
def holders (t : FdTable) (d : Descriptor) : Nat :=
  t.slots.toList.countP (Slot.holds d)

/-- The table with another slot at `fd`. -/
def withSlot (t : FdTable) (fd : Nat) (slot : Slot) : FdTable :=
  { t with slots := t.slots.setIfInBounds fd slot }

/-- The table with slot `fd` given up. -/
def vacated (t : FdTable) (fd : Nat) : FdTable :=
  { t.withSlot fd .free with free := t.free ++ [fd] }

/-- The table with an entry in slot `fd`, which was the first in the queue. -/
def installed (t : FdTable) (fd : Nat) (entry : FdEntry) : FdTable :=
  { t.withSlot fd (.opened entry) with free := t.free.tail }

theorem lt_size (h : t.slots[fd]? = some old) : fd < t.slots.size :=
  (Array.getElem?_eq_some_iff.mp h).1

theorem slots_withSlot (h : t.slots[fd]? = some old) (new : Slot) (i : Nat) :
    (t.withSlot fd new).slots[i]? = if i = fd then some new else t.slots[i]? := by
  rw [withSlot, Array.getElem?_setIfInBounds]
  by_cases hi : fd = i
  · subst hi
    simp [lt_size h]
  · rw [if_neg hi, if_neg (Ne.symm hi)]

theorem vacated_slots (t : FdTable) (fd : Nat) :
    (t.vacated fd).slots = (t.withSlot fd .free).slots := rfl

theorem slots_vacated (h : t.slots[fd]? = some old) (i : Nat) :
    (t.vacated fd).slots[i]? = if i = fd then some .free else t.slots[i]? :=
  slots_withSlot h .free i

theorem installed_slots (t : FdTable) (fd : Nat) (entry : FdEntry) :
    (t.installed fd entry).slots = (t.withSlot fd (.opened entry)).slots := rfl

theorem withSlot_withSlot (t : FdTable) (fd : Nat) (slot new : Slot) :
    (t.withSlot fd slot).withSlot fd new = t.withSlot fd new := by
  simp only [withSlot, Array.setIfInBounds_setIfInBounds]

/-- A slot that is put back as it was. -/
theorem withSlot_self (h : t.slots[fd]? = some old) : t.withSlot fd old = t := by
  obtain ⟨hlt, hslot⟩ := Array.getElem?_eq_some_iff.mp h
  rw [withSlot, ← hslot, Array.setIfInBounds_def, dif_pos hlt, Array.set_getElem_self]

/-- Taking the file of a slot out before giving the slot up makes no difference. -/
theorem vacated_withSlot (t : FdTable) (fd : Nat) (slot : Slot) :
    (t.withSlot fd slot).vacated fd = t.vacated fd := by
  simp only [vacated, withSlot, Array.setIfInBounds_setIfInBounds]

/-! ### What the operations come to -/

theorem get_eq_ok_iff : t.get fd = .ok entry ↔ t.slots[fd]? = some (.opened entry) := by
  rw [get]
  cases t.slots[fd]? with
  | none => simp
  | some slot => cases slot <;> simp

theorem setSlot_eq (h : t.slots[fd]? = some old) (new : Slot) :
    t.setSlot fd new = .ok (t.withSlot fd new) := by
  rw [setSlot, if_pos (lt_size h)]
  rfl

theorem vacate_eq (h : t.slots[fd]? = some old) : t.vacate fd = .ok (t.vacated fd) := by
  rw [vacate, setSlot_eq h]
  rfl

/-- Closing begins at an open slot, or not at all. -/
theorem startClosing_cases (t : FdTable) (fd : Nat) :
    (∃ e, t.startClosing fd = .error e) ∨
    ∃ entry, t.slots[fd]? = some (.opened entry) ∧
      t.startClosing fd = .ok (entry, t.withSlot fd .closing) := by
  rw [startClosing]
  cases hget : t.get fd with
  | error e => exact .inl ⟨e, rfl⟩
  | ok entry => exact .inr ⟨entry, get_eq_ok_iff.mp hget, rfl⟩

/-- An open slot is given up and its entry handed out; any other stays. -/
theorem take_cases (h : t.slots[fd]? = some old) :
    (t.take fd = .ok (none, t) ∧ ∀ entry, t.slots[fd]? ≠ some (.opened entry)) ∨
    ∃ entry, t.slots[fd]? = some (.opened entry) ∧
      t.take fd = .ok (some entry, t.vacated fd) := by
  rw [take, h]
  cases old with
  | opened entry =>
      refine .inr ⟨entry, rfl, ?_⟩
      dsimp only
      rw [vacate_eq h]
      rfl
  | free => exact .inl ⟨rfl, by simp⟩
  | closing => exact .inl ⟨rfl, by simp⟩

/-- An entry goes into the first slot in the queue, unless there is none. -/
theorem Regular.install_cases (r : t.Regular) (entry : FdEntry) :
    t.install entry = .ok (.error .tooManyOpenFiles) ∨
    ∃ fd rest, t.free = fd :: rest ∧ t.slots[fd]? = some .free ∧
      t.install entry = .ok (.ok (fd, t.installed fd entry)) := by
  rw [install]
  cases hfree : t.free with
  | nil => exact .inl rfl
  | cons fd rest =>
      have hslot : t.slots[fd]? = some .free := (r.free fd).mp (hfree ▸ List.mem_cons_self)
      refine .inr ⟨fd, rest, rfl, hslot, ?_⟩
      dsimp only
      rw [hslot, installed, hfree]
      rfl

/-- Where an entry has been installed: in the slot that was the first in the queue. -/
theorem install_eq_ok {table : FdTable} (h : t.install entry = .ok (.ok (fd, table))) :
    (∃ rest, t.free = fd :: rest) ∧ t.slots[fd]? = some .free ∧ table = t.installed fd entry := by
  rw [install] at h
  cases hfree : t.free with
  | nil =>
      rw [hfree] at h
      cases h
  | cons i rest =>
      rw [hfree] at h
      dsimp only at h
      cases hslot : t.slots[i]? with
      | none =>
          rw [hslot] at h
          cases h
      | some slot =>
          rw [hslot] at h
          cases slot with
          | free =>
              cases h
              refine ⟨⟨rest, rfl⟩, hslot, ?_⟩
              rw [installed, hfree]
              rfl
          | opened other => cases h
          | closing => cases h

/-- Nothing is installed where no number is queued. -/
theorem install_eq_error {e : Error} (h : t.install entry = .ok (.error e)) :
    t.free = [] ∧ e = .tooManyOpenFiles := by
  rw [install] at h
  cases hfree : t.free with
  | nil =>
      rw [hfree] at h
      cases h
      exact ⟨rfl, rfl⟩
  | cons i rest =>
      rw [hfree] at h
      dsimp only at h
      split at h <;> cases h

theorem exists_slot_of_vacate {table : FdTable} (h : t.vacate fd = .ok table) :
    ∃ old, t.slots[fd]? = some old ∧ table = t.vacated fd := by
  cases hslot : t.slots[fd]? with
  | none =>
      rw [vacate, setSlot, if_neg fun hlt => by
        rw [Array.getElem?_eq_getElem hlt] at hslot
        cases hslot] at h
      cases h
  | some old =>
      rw [vacate_eq hslot] at h
      cases h
      exact ⟨old, rfl, rfl⟩

theorem exists_slot_of_setSlot {table : FdTable} {new : Slot}
    (h : t.setSlot fd new = .ok table) :
    ∃ old, t.slots[fd]? = some old ∧ table = t.withSlot fd new := by
  rw [setSlot] at h
  split at h
  · rename_i hlt
    cases h
    exact ⟨_, Array.getElem?_eq_getElem hlt, rfl⟩
  · cases h

/-- What has been taken out of a slot was its entry. -/
theorem take_eq_ok {found : Option FdEntry} {table : FdTable}
    (h : t.take fd = .ok (found, table)) :
    (found = none ∧ table = t ∧ ∀ entry, t.slots[fd]? ≠ some (.opened entry)) ∨
      ∃ entry, found = some entry ∧ t.slots[fd]? = some (.opened entry) ∧
        table = t.vacated fd := by
  cases hslot : t.slots[fd]? with
  | none =>
      rw [take, hslot] at h
      cases h
  | some old =>
      rcases take_cases hslot with ⟨htake, hnot⟩ | ⟨entry, hopen, htake⟩
      · rw [htake] at h
        cases h
        exact .inl ⟨rfl, rfl, hslot ▸ hnot⟩
      · rw [htake] at h
        cases h
        exact .inr ⟨entry, rfl, hslot ▸ hopen, rfl⟩

/-! ### Regular tables -/

theorem regular_ofCapacity (capacity : Nat) : (ofCapacity capacity).Regular where
  size := by simp [ofCapacity]
  nodup := List.nodup_range
  free fd := by
    simp only [ofCapacity, List.mem_range, Array.getElem?_replicate]
    split <;> simp_all

/-- No slot of a new table holds anything. -/
theorem holders_ofCapacity (capacity : Nat) (d : Descriptor) :
    (ofCapacity capacity).holders d = 0 := by
  simp [holders, ofCapacity, Slot.holds, List.countP_eq_zero]

namespace Regular

/-- A slot that is not free may change to another that is not. -/
theorem withSlot (r : t.Regular) (h : t.slots[fd]? = some old) (hold : old ≠ .free) {new : Slot}
    (hnew : new ≠ .free) : (t.withSlot fd new).Regular where
  size := by simp [FdTable.withSlot, r.size]
  nodup := r.nodup
  free i := by
    rw [slots_withSlot h]
    by_cases hi : i = fd
    · subst hi
      simp only [if_true, Option.some.injEq, hnew, iff_false]
      intro hfree
      have hslot := (r.free i).mp hfree
      rw [h] at hslot
      exact hold (Option.some.inj hslot)
    · rw [if_neg hi]
      exact r.free i

/-- A slot that is not free may be given up. -/
theorem vacated (r : t.Regular) (h : t.slots[fd]? = some old) (hold : old ≠ .free) :
    (t.vacated fd).Regular where
  size := by simp [FdTable.vacated, FdTable.withSlot, r.size]
  nodup := by
    refine List.nodup_append.mpr ⟨r.nodup, List.nodup_singleton fd, fun a ha b hb => ?_⟩
    rw [List.mem_singleton.mp hb]
    rintro rfl
    have hslot := (r.free a).mp ha
    rw [h] at hslot
    exact hold (Option.some.inj hslot)
  free i := by
    rw [slots_vacated h, FdTable.vacated]
    simp only [List.mem_append, List.mem_singleton]
    by_cases hi : i = fd
    · simp [hi]
    · rw [if_neg hi]
      exact ⟨fun hmem => (r.free i).mp (hmem.resolve_right hi), fun hs => .inl ((r.free i).mpr hs)⟩

/-- The first slot in the queue may be filled. -/
theorem installed (r : t.Regular) {rest : List Nat} (hfree : t.free = fd :: rest)
    (entry : FdEntry) : (t.installed fd entry).Regular where
  size := by simp [FdTable.installed, FdTable.withSlot, r.size]
  nodup := r.nodup.tail
  free i := by
    have hslot : t.slots[fd]? = some .free := (r.free fd).mp (hfree ▸ List.mem_cons_self)
    have hnodup := r.nodup
    rw [hfree, List.nodup_cons] at hnodup
    rw [FdTable.installed, slots_withSlot hslot, hfree, List.tail_cons]
    by_cases hi : i = fd
    · subst hi
      simp [hnodup.1]
    · rw [if_neg hi, ← r.free i, hfree]
      simp [hi]

/-- There are no more free numbers than slots. -/
theorem free_le (r : t.Regular) : t.free.length ≤ t.capacity := by
  have hsub : t.free ⊆ List.range t.capacity := by
    intro fd hfd
    rw [List.mem_range, ← r.size]
    exact lt_size ((r.free fd).mp hfd)
  simpa using (List.subperm_of_subset r.nodup hsub).length_le

theorem used_eq (r : t.Regular) : t.used = .ok (t.capacity - t.free.length) := by
  rw [used, if_neg (Nat.not_lt.mpr r.free_le)]

/-- The queue is as long as there are free slots. -/
theorem length_free (r : t.Regular) :
    t.free.length = t.slots.toList.countP fun slot => decide (slot = .free) := by
  have hqueue : t.free.Perm
      ((List.range t.slots.size).filter fun fd => decide (t.slots[fd]? = some .free)) :=
    (List.perm_ext_iff_of_nodup r.nodup (List.nodup_range.filter _)).mpr fun fd => by
      rw [r.free fd, List.mem_filter, List.mem_range, decide_eq_true_eq]
      exact ⟨fun h => ⟨lt_size h, h⟩, fun h => h.2⟩
  have hslots : (List.range t.slots.size).map (fun fd => t.slots[fd]?) =
      t.slots.toList.map some :=
    List.ext_getElem (by simp) fun fd hfd hfd' => by
      have hlt : fd < t.slots.size := by simpa using hfd
      simp [hlt]
  have hcount := congrArg (List.countP fun slot => decide (slot = some .free)) hslots
  rw [List.countP_map, List.countP_map] at hcount
  rw [hqueue.length_eq, ← List.countP_eq_length_filter]
  refine hcount.trans ?_
  simp [Function.comp_def]

/-- **A regular table is accounted for.** -/
theorem accounted (r : t.Regular) : t.Accounted where
  size := r.size
  queued fd := by
    rw [r.nodup.count]
    exact if_congr (r.free fd) rfl rfl
  used := by
    have hslots := List.length_eq_countP_add_countP (fun slot => decide (slot = .free))
      (l := t.slots.toList)
    rw [r.used_eq, r.length_free, ← r.size, ← Array.length_toList, hslots]
    congr 1
    simp
  bounded := by
    rw [← r.size, ← Array.length_toList]
    exact List.countP_le_length

end Regular

/-! ### Who holds a descriptor -/

theorem holders_withSlot (h : t.slots[fd]? = some old) (new : Slot) (d : Descriptor) :
    (t.withSlot fd new).holders d + (if old.holds d then 1 else 0) =
      t.holders d + (if new.holds d then 1 else 0) := by
  obtain ⟨hlt, hslot⟩ := Array.getElem?_eq_some_iff.mp h
  have hcount := List.countP_set (p := Slot.holds d) (l := t.slots.toList) (i := fd) (a := new)
    (by simpa using hlt)
  have hpos : (if old.holds d then 1 else 0) ≤ t.slots.toList.countP (Slot.holds d) := by
    split
    · refine List.countP_pos_iff.mpr ⟨old, ?_, ‹_›⟩
      rw [← hslot]
      simp
    · exact Nat.zero_le _
  rw [holders, holders, withSlot, Array.toList_setIfInBounds, hcount]
  simp only [Array.getElem_toList, hslot]
  omega

/-- Where one slot refers to a descriptor and no other does, one does. -/
theorem countP_refers_eq_one {id : Nat} (h : t.slots[fd]? = some old)
    (hrefers : old.refers id = true)
    (honly : ∀ (i : Nat) slot, t.slots[i]? = some slot → slot.refers id = true → i = fd) :
    t.slots.toList.countP (Slot.refers id) = 1 := by
  have hone : ∀ {l : List Slot} {i : Nat}, l[i]? = some old →
      (∀ (j : Nat) slot, l[j]? = some slot → slot.refers id = true → j = i) →
      l.countP (Slot.refers id) = 1 := by
    intro l i hold honly
    induction l generalizing i with
    | nil => cases hold
    | cons slot l ih =>
      cases i with
      | zero =>
        cases hold
        rw [List.countP_cons_of_pos hrefers, List.countP_eq_zero.mpr fun b hb hrefers => ?_]
        obtain ⟨j, hj⟩ := List.mem_iff_getElem?.mp hb
        cases honly (j + 1) b hj hrefers
      | succ i =>
        rw [List.countP_cons_of_neg fun hslot => by cases honly 0 slot rfl hslot]
        exact ih hold fun j b hj hrefers => Nat.succ.inj (honly (j + 1) b hj hrefers)
  exact hone (by rwa [Array.getElem?_toList]) fun i slot hi => honly i slot (by
    rwa [Array.getElem?_toList] at hi)

theorem holders_pos_iff {d : Descriptor} :
    0 < t.holders d ↔
      ∃ (fd : Nat) (entry : FdEntry), t.slots[fd]? = some (.opened entry) ∧
        entry.descriptor = d := by
  rw [holders, List.countP_pos_iff]
  constructor
  · rintro ⟨slot, hmem, hholds⟩
    obtain ⟨fd, hfd⟩ := List.mem_iff_getElem?.mp hmem
    cases slot with
    | opened entry => exact ⟨fd, entry, by simpa using hfd, by simpa [Slot.holds] using hholds⟩
    | free => cases hholds
    | closing => cases hholds
  · rintro ⟨fd, entry, hslot, hd⟩
    refine ⟨.opened entry, ?_, by simpa [Slot.holds] using hd⟩
    exact Array.mem_toList_iff.mpr (Array.mem_of_getElem? hslot)

end FdTable

end VirtualFs
