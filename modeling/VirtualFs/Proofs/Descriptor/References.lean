import Mathlib.Tactic.Common
import VirtualFs.Descriptor.References

/-!
# One reference more or less

Where a descriptor has references, or has none, as an operation on its count expects, the operation
writes one more (`more`) or one less (`less`).

* `release_cases`: a release says whether the reference was the last.
* `count_more`, `count_less`: the other descriptors keep their counts.
* `FdEntry.lastClose?`: what the driver is to be asked when the last reference is released.
-/

namespace VirtualFs

namespace References

variable {r : References} {d : Descriptor}

/-- One more reference to the descriptor. -/
def more (r : References) (d : Descriptor) : References :=
  r.write d.id (r.count d.id + 1)

/-- One reference less to the descriptor. -/
def less (r : References) (d : Descriptor) : References :=
  r.write d.id (r.count d.id - 1)

@[simp] theorem next_more (r : References) (d : Descriptor) : (r.more d).next = r.next := by
  simp [more, write, next]

@[simp] theorem next_less (r : References) (d : Descriptor) : (r.less d).next = r.next := by
  simp [less, write, next]

theorem next_create (r : References) : r.create.next = r.next + 1 := by
  simp [create, next]

/-- A descriptor with references has been given out. -/
theorem lt_next (h : 0 < r.count d.id) : d.id < r.next := by
  by_contra hge
  rw [count, Array.getD_eq_getD_getElem?, Array.getElem?_eq_none (Nat.le_of_not_lt hge)] at h
  exact Nat.lt_irrefl 0 h

/-- One more for the number of the descriptor, and the same for other numbers. -/
theorem count_more_id (h : d.id < r.next) (id : Nat) :
    (r.more d).count id = r.count id + if d.id = id then 1 else 0 := by
  rw [more, count_write]
  by_cases he : d.id = id
  · subst he
    simp [h]
  · rw [if_neg fun hw => he hw.1.symm, if_neg he, Nat.add_zero]

/-- One less for the number of the descriptor, and the same for other numbers. -/
theorem count_less_id (h : d.id < r.next) (id : Nat) :
    (r.less d).count id = r.count id - if d.id = id then 1 else 0 := by
  rw [less, count_write]
  by_cases he : d.id = id
  · subst he
    simp [h]
  · rw [if_neg fun hw => he hw.1.symm, if_neg he, Nat.sub_zero]

/-- References to as many descriptors that count the same are the same. -/
theorem eq_of_count {r' : References} (hnext : r.next = r'.next)
    (h : ∀ id, r.count id = r'.count id) : r = r' := by
  obtain ⟨counts⟩ := r
  obtain ⟨counts'⟩ := r'
  congr 1
  refine Array.ext hnext fun id hid hid' => ?_
  have hcount := h id
  rwa [count, count, Array.getD_eq_getD_getElem?, Array.getD_eq_getD_getElem?,
    Array.getElem?_eq_getElem hid, Array.getElem?_eq_getElem hid'] at hcount

/-- A reference that is given back makes no difference. -/
theorem more_less (h : 0 < r.count d.id) : (r.less d).more d = r := by
  refine eq_of_count (by rw [next_more, next_less]) fun id => ?_
  have hlt := lt_next h
  rw [count_more_id (by rwa [next_less]), count_less_id hlt]
  split
  · rename_i he
    rw [← he]
    omega
  · rfl

/-- One more for the descriptor, and the same for others, which have other numbers. -/
theorem count_more (h : d.id < r.next) {d' : Descriptor} (hid : d'.id = d.id → d' = d) :
    (r.more d).count d'.id = r.count d'.id + if d = d' then 1 else 0 := by
  rw [more, count_write]
  by_cases he : d = d'
  · subst he
    simp [h]
  · rw [if_neg fun hw => he (hid hw.1).symm, if_neg he, Nat.add_zero]

/-- One less for the descriptor, and the same for others. -/
theorem count_less (h : d.id < r.next) {d' : Descriptor} (hid : d'.id = d.id → d' = d) :
    (r.less d).count d'.id = r.count d'.id - if d = d' then 1 else 0 := by
  rw [less, count_write]
  by_cases he : d = d'
  · subst he
    simp [h]
  · rw [if_neg fun hw => he (hid hw.1).symm, if_neg he, Nat.sub_zero]

theorem acquire_eq (h : 0 < r.count d.id) : r.acquire d = .ok (r.more d) := by
  obtain ⟨n, hn⟩ := Nat.exists_eq_succ_of_ne_zero (Nat.ne_of_gt h)
  rw [acquire, more, hn]

theorem restore_eq (h : r.count d.id = 0) : r.restore d = .ok (r.more d) := by
  rw [restore, more, h]

/-- The last reference is released, or one that leaves others. -/
theorem release_cases (h : 0 < r.count d.id) :
    (r.count d.id = 1 ∧ r.release d = .ok (.last, r.less d)) ∨
    (1 < r.count d.id ∧ r.release d = .ok (.shared, r.less d)) := by
  rw [release, less]
  cases hn : r.count d.id with
  | zero => exact absurd (hn ▸ h) (Nat.lt_irrefl 0)
  | succ n =>
      cases n with
      | zero => exact .inl ⟨rfl, rfl⟩
      | succ n => exact .inr ⟨by omega, rfl⟩

end References

/-! ### The last reference -/

namespace FdEntry

/-- The question to close the file, if a driver from outside has opened it. -/
def close? (entry : FdEntry) : Option HookCall :=
  match entry.descriptor.record.driver with
  | .external driver => some (.close driver entry.descriptor.handle)
  | .directory _ => none

/-- The question to close the file, if there is one reference to it. -/
def lastClose? (entry : FdEntry) (r : References) : Option HookCall :=
  if r.count entry.descriptor.id = 1 then entry.close? else none

variable {entry : FdEntry} {question : HookCall} {r : References}

theorem close?_eq_some : entry.close? = some question ↔ ∃ driver,
    entry.descriptor.record.driver = .external driver ∧
      question = .close driver entry.descriptor.handle := by
  rw [close?]
  cases entry.descriptor.record.driver with
  | external driver => simp [eq_comm]
  | directory v => simp

theorem lastClose?_eq_some : entry.lastClose? r = some question ↔
    r.count entry.descriptor.id = 1 ∧ entry.close? = some question := by
  simp [lastClose?]

end FdEntry

end VirtualFs
