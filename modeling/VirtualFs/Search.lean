/-!
# Search by halving

The first index of an interval at which a test fails, found by halving the interval.  The answer
is right when the test holds on a first part of the interval and fails on the rest
(`lowerBound_eq`): it is then the length of that first part.

The search in a sorted list (`find?`) and the place of a new member (`place`) both come from it.
-/

namespace VirtualFs.Search

/-- The first index from `lo` on and below `hi` at which `before` fails, or `hi`. -/
def lowerBound (before : Nat → Bool) (lo hi : Nat) : Nat :=
  if lo < hi then
    if before ((lo + hi) / 2) then lowerBound before ((lo + hi) / 2 + 1) hi
    else lowerBound before lo ((lo + hi) / 2)
  else lo
termination_by hi - lo

/-- A test that holds below `n` and fails from `n` on has its lower bound at `n`. -/
theorem lowerBound_eq {before : Nat → Bool} {lo hi n : Nat} (hlo : lo ≤ n) (hhi : n ≤ hi)
    (hbefore : ∀ i, lo ≤ i → i < n → before i = true)
    (hafter : ∀ i, n ≤ i → i < hi → before i = false) : lowerBound before lo hi = n := by
  fun_induction lowerBound before lo hi with
  | case1 lo hi hlt hmid ih =>
    have hn : (lo + hi) / 2 < n := by
      by_cases h : (lo + hi) / 2 < n
      · exact h
      · have := hafter ((lo + hi) / 2) (by omega) (by omega)
        simp [this] at hmid
    exact ih (by omega) hhi (fun i h₁ h₂ => hbefore i (by omega) h₂) hafter
  | case2 lo hi hlt hmid ih =>
    have hn : n ≤ (lo + hi) / 2 := by
      by_cases h : (lo + hi) / 2 < n
      · have := hbefore ((lo + hi) / 2) (by omega) h
        simp [this] at hmid
      · omega
    exact ih hlo hn hbefore (fun i h₁ h₂ => hafter i h₁ (by omega))
  | case3 lo hi hge => omega

/-- The number of members at the front of `xs` that pass the test. -/
def partitionPoint {α : Type} (before : α → Bool) (xs : List α) : Nat :=
  lowerBound (fun i => (xs[i]?).any before) 0 xs.length

/-- Where a search in a sorted list ends. -/
inductive Place where
  /-- The member at this index compares equal. -/
  | found (index : Nat)
  /-- No member does; one that did would go to this index. -/
  | vacant (index : Nat)
deriving DecidableEq, Repr

/-- The place in a sorted list of what `order` compares the members with. -/
def place {α : Type} (order : α → Ordering) (xs : List α) : Place :=
  let index := partitionPoint (order · == .lt) xs
  if (xs[index]?).any (order · == .eq) then .found index else .vacant index

/-- The member of a sorted list that compares equal. -/
def find? {α : Type} (order : α → Ordering) (xs : List α) : Option α :=
  match place order xs with
  | .found index => xs[index]?
  | .vacant _ => none

end VirtualFs.Search
