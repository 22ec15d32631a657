import VirtualFs.Search

/-!
# Searching a sorted list

A list is `Ascending` for a comparison with something sought if whatever stands before a member that
is not too great is too small: so it is in a list without ties that is sorted the way the comparison
goes.  Then halving finds what a scan of the list finds.

* `partitionPoint_append`: the partition point is where the members cease to pass the test.
* `find?_eq`: the search finds the member that compares equal, if there is one.
* `find?_map`: it does so wherever the members compare alike.
* `place_vacant`: if none does, its place is behind all smaller members and before all greater ones.
-/

namespace VirtualFs.Search

variable {α : Type}

/-! ### The partition point -/

theorem partitionPoint_append {before : α → Bool} {l r : List α}
    (hl : ∀ a ∈ l, before a = true) (hr : ∀ a ∈ r, before a = false) :
    partitionPoint before (l ++ r) = l.length := by
  refine lowerBound_eq (Nat.zero_le _) (by simp) (fun i _ hi => ?_) (fun i hi hlt => ?_)
  · rw [List.getElem?_append_left hi, List.getElem?_eq_getElem hi]
    exact hl _ (List.getElem_mem hi)
  · rw [List.getElem?_append_right hi]
    have hlt : i - l.length < r.length := by simp only [List.length_append] at hlt; omega
    rw [List.getElem?_eq_getElem hlt]
    exact hr _ (List.getElem_mem hlt)

/-- The partition point is the same where other members answer the test alike. -/
theorem partitionPoint_map {β : Type} {f : α → β} {before : α → Bool} {before' : β → Bool}
    {xs : List α} (h : ∀ a ∈ xs, before' (f a) = before a) :
    partitionPoint before' (xs.map f) = partitionPoint before xs := by
  have htest : (fun i : Nat => ((xs.map f)[i]?).any before') =
      fun i : Nat => (xs[i]?).any before := by
    funext i
    rw [List.getElem?_map]
    cases hi : xs[i]? with
    | none => rfl
    | some a => exact h a (List.mem_of_getElem? hi)
  rw [partitionPoint, partitionPoint, htest, List.length_map]

/-- A test that no member passes after one that fails divides the list. -/
theorem exists_split {before : α → Bool} {xs : List α}
    (h : xs.Pairwise fun a b => before b = true → before a = true) :
    ∃ l r, xs = l ++ r ∧ (∀ a ∈ l, before a = true) ∧ ∀ a ∈ r, before a = false := by
  induction xs with
  | nil => exact ⟨[], [], rfl, by simp, by simp⟩
  | cons x xs ih =>
      obtain ⟨hx, hxs⟩ := List.pairwise_cons.mp h
      cases hb : before x with
      | true =>
          obtain ⟨l, r, rfl, hl, hr⟩ := ih hxs
          exact ⟨x :: l, r, rfl, by simpa [hb] using hl, hr⟩
      | false =>
          refine ⟨[], x :: xs, rfl, by simp, fun a ha => ?_⟩
          rcases List.mem_cons.mp ha with rfl | ha
          · exact hb
          · exact Bool.eq_false_iff.mpr fun hne => by simp [hx a ha hne] at hb

/-! ### The place of what is sought -/

/-- The search ends at the same place where other members compare alike. -/
theorem find?_map {β : Type} {f : α → β} {order : α → Ordering} {order' : β → Ordering}
    {xs : List α} (h : ∀ a ∈ xs, order' (f a) = order a) :
    find? order' (xs.map f) = (find? order xs).map f := by
  have hpoint : partitionPoint (order' · == .lt) (xs.map f) = partitionPoint (order · == .lt) xs :=
    partitionPoint_map fun a ha => by rw [h a ha]
  rw [find?, find?, place, place, hpoint, List.getElem?_map]
  cases hi : xs[partitionPoint (order · == .lt) xs]? with
  | none => rfl
  | some a =>
      rw [Option.map_some, Option.any_some, Option.any_some, h a (List.mem_of_getElem? hi)]
      cases order a == .eq with
      | true => exact List.getElem?_map
      | false => rfl

/-- Before a member that is not too great stand only members that are too small. -/
def Ascending (order : α → Ordering) (xs : List α) : Prop :=
  xs.Pairwise fun a b => order b ≠ .gt → order a = .lt

/-- The members that are too small come first. -/
theorem Ascending.split {order : α → Ordering} {xs : List α} (h : Ascending order xs) :
    ∃ l r, xs = l ++ r ∧ (∀ a ∈ l, order a = .lt) ∧ (∀ a ∈ r, order a ≠ .lt) ∧
      partitionPoint (order · == .lt) xs = l.length := by
  have hp : xs.Pairwise fun a b => (order b == .lt) = true → (order a == .lt) = true :=
    List.Pairwise.imp (fun {a b} hab hb => by
      have hb : order b = .lt := by simpa using hb
      simpa using hab (by rw [hb]; exact fun e => by cases e)) h
  obtain ⟨l, r, rfl, hl, hr⟩ := exists_split hp
  exact ⟨l, r, rfl, fun a ha => by simpa using hl a ha, fun a ha => by simpa using hr a ha,
    partitionPoint_append hl hr⟩

/-- Behind a member that is not too small all are too great. -/
theorem Ascending.gt_of_mem_tail {order : α → Ordering} {a : α} {r : List α}
    (h : Ascending order (a :: r)) (ha : order a ≠ .lt) : ∀ b ∈ r, order b = .gt := fun b hb =>
  Decidable.byContradiction fun hne => ha ((List.pairwise_cons.mp h).1 b hb hne)

/-- **A member that compares equal is found.** -/
theorem place_found {order : α → Ordering} {xs : List α} (h : Ascending order xs) {a : α}
    (ha : a ∈ xs) (heq : order a = .eq) : ∃ i, place order xs = .found i ∧ xs[i]? = some a := by
  obtain ⟨l, r, rfl, hl, hr, hpoint⟩ := h.split
  have har : a ∈ r := by
    rcases List.mem_append.mp ha with hal | har
    · rw [hl a hal] at heq; cases heq
    · exact har
  cases r with
  | nil => cases har
  | cons b r =>
      have hasc : Ascending order (b :: r) := (List.pairwise_append.mp h).2.1
      have hab : a = b := by
        rcases List.mem_cons.mp har with rfl | har
        · rfl
        · rw [hasc.gt_of_mem_tail (hr b List.mem_cons_self) a har] at heq; cases heq
      subst hab
      refine ⟨l.length, ?_, by simp⟩
      simp [place, hpoint, heq]

/-- **Where no member compares equal**, the place is between those before and those after. -/
theorem place_vacant {order : α → Ordering} {xs : List α} (h : Ascending order xs)
    (hne : ∀ a ∈ xs, order a ≠ .eq) : ∃ l r, xs = l ++ r ∧ place order xs = .vacant l.length ∧
      (∀ a ∈ l, order a = .lt) ∧ ∀ a ∈ r, order a = .gt := by
  obtain ⟨l, r, rfl, hl, hr, hpoint⟩ := h.split
  refine ⟨l, r, rfl, ?_, hl, fun a ha => ?_⟩
  · cases r with
    | nil =>
        rw [List.append_nil] at hpoint ⊢
        simp [place, hpoint]
    | cons b r =>
        have hb : order b ≠ .eq := hne b (by simp)
        simp [place, hpoint, hb]
  · cases hc : order a with
    | lt => exact absurd hc (hr a ha)
    | eq => exact absurd hc (hne a (List.mem_append_right _ ha))
    | gt => rfl

/-- **The search finds what a scan finds.** -/
theorem find?_eq {order : α → Ordering} {xs : List α} (h : Ascending order xs) :
    find? order xs = xs.find? (order · == .eq) := by
  cases hscan : xs.find? (order · == .eq) with
  | none =>
      have hne : ∀ a ∈ xs, order a ≠ .eq := by
        intro a ha
        simpa using List.find?_eq_none.mp hscan a ha
      obtain ⟨l, r, -, hplace, -, -⟩ := place_vacant h hne
      rw [find?, hplace]
  | some a =>
      have heq : order a = .eq := by simpa using List.find?_some hscan
      obtain ⟨i, hplace, hi⟩ := place_found h (List.mem_of_find?_eq_some hscan) heq
      rw [find?, hplace]
      exact hi

end VirtualFs.Search
