import VirtualFs.Proofs.Descriptor.References
import VirtualFs.Proofs.Descriptor.Table

/-!
# Clearing a table

A table is emptied by giving up its open slots in ascending order (`cleared`).  Each of them gives
back a reference to its descriptor, and where that was the last one, the driver of the file is to be
asked to close it (`closings`).

* `slots_cleared`, `free_cleared`, `Regular.clears`: the slots and the queue of a table that is
  cleared.
* `Distinct.held_eq_one`: of each descriptor in a table, one reference is given back.
* `nodup_closings`: no driver is asked twice.
-/

namespace VirtualFs

namespace FdTable

variable {t : FdTable} {fd n : Nat} {entry : FdEntry} {r : References}

/-- The entry of a slot, if it is open. -/
def opened? (t : FdTable) (fd : Nat) : Option FdEntry :=
  (t.get fd).toOption

theorem opened?_eq_some : t.opened? fd = some entry ↔ t.slots[fd]? = some (.opened entry) := by
  rw [← get_eq_ok_iff, opened?]
  cases t.get fd <;> simp [Except.toOption]

theorem opened?_eq_none :
    t.opened? fd = none ↔ ∀ entry, t.slots[fd]? ≠ some (.opened entry) := by
  simp only [Option.eq_none_iff_forall_ne_some, Ne, opened?_eq_some]

/-- The table with its open slots before number `n` given up, in ascending order. -/
def cleared (t : FdTable) : Nat → FdTable
  | 0 => t
  | n + 1 => match t.opened? n with
    | some _ => (t.cleared n).vacated n
    | none => t.cleared n

/-- The questions that giving up the open slots before number `n` asks, in this order, where there
are so many references. -/
def closings (t : FdTable) (r : References) (n : Nat) : List HookCall :=
  (List.range n).filterMap fun fd => (t.opened? fd).bind (·.lastClose? r)

/-- The number of open slots before number `n` that hold descriptor `id`. -/
def held (t : FdTable) (id n : Nat) : Nat :=
  (List.range n).countP fun fd => (t.opened? fd).any (·.descriptor.id = id)

/-- No two slots hold the same descriptor. -/
def Distinct (t : FdTable) : Prop :=
  ∀ i j e e', t.opened? i = some e → t.opened? j = some e' →
    e.descriptor.id = e'.descriptor.id → i = j

/-- **A table that has been cleared**: the slots that were open have joined the queue, in ascending
order, and no slot is taken. -/
structure Cleared (t t' : FdTable) : Prop where
  capacity : t'.capacity = t.capacity
  slots : ∀ fd < t.capacity, t'.slots[fd]? = some .free
  free : t'.free = t.free ++ (List.range t.capacity).filter fun fd => (t.opened? fd).isSome
  used : t'.used = .ok 0

/-! ### How far a table has been cleared -/

theorem cleared_succ_of_open (h : t.opened? n = some entry) :
    t.cleared (n + 1) = (t.cleared n).vacated n := by
  rw [cleared, h]

theorem cleared_succ_of_shut (h : t.opened? n = none) : t.cleared (n + 1) = t.cleared n := by
  rw [cleared, h]

theorem capacity_cleared (t : FdTable) (n : Nat) : (t.cleared n).capacity = t.capacity := by
  induction n with
  | zero => rfl
  | succ n ih =>
    rw [cleared]
    split
    · exact ih
    · exact ih

/-- Open slots before the number are free, and all others are as they were. -/
theorem slots_cleared (t : FdTable) (n fd : Nat) : (t.cleared n).slots[fd]? =
    if fd < n ∧ (t.opened? fd).isSome then some .free else t.slots[fd]? := by
  induction n generalizing fd with
  | zero => simp [cleared]
  | succ n ih =>
    cases h : t.opened? n with
    | none =>
      rw [cleared_succ_of_shut h, ih]
      refine if_congr (and_congr_left fun hopen => ?_) rfl rfl
      refine (Nat.lt_succ_iff_lt_or_eq.trans (or_iff_left ?_)).symm
      rintro rfl
      rw [h] at hopen
      cases hopen
    | some entry =>
      have hslot : (t.cleared n).slots[n]? = some (.opened entry) := by
        rw [ih, if_neg fun hlt => Nat.lt_irrefl n hlt.1, opened?_eq_some.mp h]
      rw [cleared_succ_of_open h, slots_vacated hslot, ih]
      by_cases hfd : fd = n
      · subst hfd
        simp [h]
      · rw [if_neg hfd]
        refine if_congr (and_congr_left fun _ => ?_) rfl rfl
        omega

/-- Slots from the number on are as they were. -/
theorem opened?_cleared (t : FdTable) (n : Nat) : (t.cleared n).opened? n = t.opened? n := by
  rw [opened?, opened?, get, get, slots_cleared, if_neg fun hlt => Nat.lt_irrefl n hlt.1]

/-- Open slots join the queue in ascending order. -/
theorem free_cleared (t : FdTable) (n : Nat) : (t.cleared n).free =
    t.free ++ (List.range n).filter fun fd => (t.opened? fd).isSome := by
  induction n with
  | zero => simp [cleared]
  | succ n ih =>
    rw [List.range_succ, List.filter_append, ← List.append_assoc, ← ih]
    cases h : t.opened? n with
    | none => rw [cleared_succ_of_shut h, List.filter_singleton, h]; simp
    | some entry => rw [cleared_succ_of_open h, List.filter_singleton, h]; simp [vacated]

namespace Regular

theorem cleared (hr : t.Regular) (n : Nat) : (t.cleared n).Regular := by
  induction n with
  | zero => exact hr
  | succ n ih =>
    cases h : t.opened? n with
    | none => rwa [cleared_succ_of_shut h]
    | some entry =>
      have hslot : (t.cleared n).slots[n]? = some (.opened entry) := by
        rw [← opened?_eq_some, opened?_cleared, h]
      rw [cleared_succ_of_open h]
      exact ih.vacated hslot Slot.noConfusion

/-- **All slots are given up** where no file is being closed. -/
theorem clears (hr : t.Regular) (hidle : ∀ fd : Nat, t.slots[fd]? ≠ some .closing) :
    t.Cleared (t.cleared t.capacity) := by
  have hslots : ∀ fd < t.capacity, (t.cleared t.capacity).slots[fd]? = some .free := by
    intro fd hfd
    rw [slots_cleared]
    by_cases hopen : (t.opened? fd).isSome
    · rw [if_pos ⟨hfd, hopen⟩]
    · rw [if_neg fun h => hopen h.2]
      obtain ⟨slot, hslot⟩ : ∃ slot, t.slots[fd]? = some slot :=
        ⟨_, Array.getElem?_eq_getElem (hr.size.symm ▸ hfd)⟩
      cases slot with
      | free => exact hslot
      | opened entry =>
        rw [opened?_eq_some.mpr hslot] at hopen
        exact absurd rfl hopen
      | closing => exact absurd hslot (hidle fd)
  refine ⟨capacity_cleared t _, hslots, free_cleared t _, ?_⟩
  rw [(hr.cleared t.capacity).accounted.used, List.countP_eq_zero.mpr fun slot hmem => ?_]
  obtain ⟨fd, hfd⟩ := List.mem_iff_getElem?.mp hmem
  rw [Array.getElem?_toList] at hfd
  have hlt := lt_size hfd
  rw [(hr.cleared t.capacity).size, capacity_cleared] at hlt
  cases (hslots fd hlt).symm.trans hfd
  simp

end Regular

/-! ### What is given back -/

theorem held_succ (t : FdTable) (id n : Nat) : t.held id (n + 1) =
    t.held id n + if (t.opened? n).any (·.descriptor.id = id) then 1 else 0 := by
  rw [held, held, List.range_succ, List.countP_append, List.countP_singleton]

theorem held_eq_zero {id : Nat} (h : ∀ fd entry, t.opened? fd = some entry →
    entry.descriptor.id = id → n ≤ fd) : t.held id n = 0 := by
  refine List.countP_eq_zero.mpr fun fd hfd hany => ?_
  obtain ⟨entry, hentry, hid⟩ := Option.any_eq_true _ _ |>.mp hany
  exact absurd (h fd entry hentry (of_decide_eq_true hid))
    (Nat.not_le.mpr (List.mem_range.mp hfd))

namespace Distinct

/-- The slots before that of a descriptor do not hold it. -/
theorem held_eq_zero (hd : t.Distinct) (h : t.opened? n = some entry) :
    t.held entry.descriptor.id n = 0 :=
  FdTable.held_eq_zero fun _ _ hentry hid => Nat.le_of_eq (hd _ _ _ _ h hentry hid.symm)

/-- **One reference** to each descriptor is given back. -/
theorem held_eq_one (hd : t.Distinct) (h : t.opened? fd = some entry) (hlt : fd < n) :
    t.held entry.descriptor.id n = 1 := by
  induction n with
  | zero => cases hlt
  | succ n ih =>
    rw [held_succ]
    rcases Nat.lt_succ_iff_lt_or_eq.mp hlt with hlt | rfl
    · rw [ih hlt, if_neg]
      intro hany
      obtain ⟨e, he, hid⟩ := Option.any_eq_true _ _ |>.mp hany
      exact Nat.ne_of_lt hlt (hd _ _ _ _ h he (of_decide_eq_true hid).symm)
    · rw [hd.held_eq_zero h, h]
      simp

end Distinct

/-! ### What is asked -/

theorem closings_succ (t : FdTable) (r : References) (n : Nat) : t.closings r (n + 1) =
    t.closings r n ++ ((t.opened? n).bind (·.lastClose? r)).toList := by
  rw [closings, closings, List.range_succ, List.filterMap_append]
  cases h : (t.opened? n).bind (·.lastClose? r) <;> simp [h]

theorem closings_prefix (t : FdTable) (r : References) {m : Nat} (h : m ≤ n) :
    t.closings r m <+: t.closings r n := by
  induction h with
  | refl => exact List.prefix_rfl
  | step _ ih =>
    rw [closings_succ]
    exact ih.trans (List.prefix_append _ _)

theorem mem_closings {question : HookCall} : question ∈ t.closings r n ↔
    ∃ fd < n, ∃ entry, t.opened? fd = some entry ∧ entry.lastClose? r = some question := by
  simp only [closings, List.mem_filterMap, List.mem_range, Option.bind_eq_some_iff]

/-- Nobody is asked where no slot is open. -/
theorem closings_eq_nil (h : ∀ fd, t.opened? fd = none) : t.closings r n = [] := by
  refine List.eq_nil_iff_forall_not_mem.mpr fun question hmem => ?_
  obtain ⟨fd, -, entry, hentry, -⟩ := mem_closings.mp hmem
  cases (h fd).symm.trans hentry

/-- No slot of a table that has been cleared is open. -/
theorem Cleared.shut {t' : FdTable} (h : t.Cleared t') (hr : t'.Regular) (fd : Nat) :
    t'.opened? fd = none := by
  refine opened?_eq_none.mpr fun entry hslot => ?_
  have hlt := lt_size hslot
  rw [hr.size, h.capacity] at hlt
  cases (h.slots fd hlt).symm.trans hslot

/-- **No driver is asked twice**, if no two slots hold files under the same handle. -/
theorem nodup_closings (h : ∀ {i j e e'}, t.opened? i = some e → t.opened? j = some e' →
    e.descriptor.handle = e'.descriptor.handle → i = j) : (t.closings r n).Nodup := by
  refine List.nodup_range.filterMap fun i j question hi hj => ?_
  obtain ⟨e, he, hclose⟩ := Option.bind_eq_some_iff.mp hi
  obtain ⟨e', he', hclose'⟩ := Option.bind_eq_some_iff.mp hj
  obtain ⟨-, hclose⟩ := FdEntry.lastClose?_eq_some.mp hclose
  obtain ⟨-, hclose'⟩ := FdEntry.lastClose?_eq_some.mp hclose'
  obtain ⟨driver, -, rfl⟩ := FdEntry.close?_eq_some.mp hclose
  obtain ⟨driver', -, hsame⟩ := FdEntry.close?_eq_some.mp hclose'
  exact h he he' (HookCall.close.inj hsame).2

end FdTable

end VirtualFs
