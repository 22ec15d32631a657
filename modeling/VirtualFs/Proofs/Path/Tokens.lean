import Mathlib.Algebra.Order.BigOperators.Group.List
import Mathlib.Algebra.Order.Ring.Nat
import Mathlib.Data.List.TakeWhile
import VirtualFs.Path.Basic

/-!
# Tokens and pieces

The tokens of a path are its pieces, but for an empty piece at the end: a path is a text without
delimiters (`takeToken?_self`), or such a text, a delimiter and a path (`takeToken?_append`), and
both ways of cutting go along this division.

* `mem_pieces_of_mem_tokens`: every token is a piece.
* `delimiter_not_mem`: no token has a delimiter in it.
* `Remains.tokens`: what follows some tokens of a path is its tail, from one byte behind the last
  of them on.
-/

namespace VirtualFs.Path

@[simp] theorem byteLength_delimiter : delimiter.utf8Size = 1 := by decide

/-! ### The first token -/

theorem takeToken?_nil : takeToken? [] = none := rfl

theorem takeToken?_append {token rest : Path} (h : delimiter ∉ token) :
    takeToken? (token ++ delimiter :: rest) = some (token, rest) := by
  have hne : (token ++ delimiter :: rest).isEmpty = false := by cases token <;> rfl
  have hp : ∀ c ∈ token, (decide (c ≠ delimiter)) = true := fun c hc =>
    decide_eq_true fun e => h (e ▸ hc)
  rw [takeToken?, hne, if_neg (by simp), List.takeWhile_append_of_pos hp,
    List.dropWhile_append_of_pos hp]
  simp

theorem takeToken?_self {token : Path} (h : delimiter ∉ token) (hne : token ≠ []) :
    takeToken? token = some (token, []) := by
  have hp : ∀ c ∈ token, (decide (c ≠ delimiter)) = true := fun c hc =>
    decide_eq_true fun e => h (e ▸ hc)
  have htake := List.takeWhile_eq_self_iff.mpr hp
  have hdrop := List.dropWhile_eq_nil_iff.mpr hp
  rw [takeToken?, if_neg (by simpa using hne), htake, hdrop]
  simp

/-- A path is a text without delimiters, or such a text with a delimiter and a path after it. -/
theorem exists_token (path : Path) : ∃ token, delimiter ∉ token ∧
    (path = token ∨ ∃ rest, path = token ++ delimiter :: rest) := by
  induction path with
  | nil => exact ⟨[], by simp, .inl rfl⟩
  | cons c path ih =>
      by_cases hc : c = delimiter
      · exact ⟨[], by simp, .inr ⟨path, by rw [hc]; rfl⟩⟩
      · obtain ⟨token, ht, h⟩ := ih
        refine ⟨c :: token, by simp [ht, Ne.symm hc], ?_⟩
        rcases h with rfl | ⟨rest, rfl⟩
        · exact .inl rfl
        · exact .inr ⟨rest, rfl⟩

/-- What the first token is: the text up to the first delimiter, or all of a path without one. -/
theorem takeToken?_eq_some {path rest : Path} {token : Segment}
    (h : takeToken? path = some (token, rest)) : delimiter ∉ token ∧
      (path = token ++ delimiter :: rest ∨ path = token ∧ rest = []) := by
  obtain ⟨t, ht, rfl | ⟨r, rfl⟩⟩ := exists_token path
  · by_cases hne : path = []
    · simp [hne, takeToken?_nil] at h
    · rw [takeToken?_self ht hne] at h
      cases h
      exact ⟨ht, .inr ⟨rfl, rfl⟩⟩
  · rw [takeToken?_append ht] at h
    cases h
    exact ⟨ht, .inl rfl⟩

/-! ### Tokens -/

@[simp] theorem tokens_nil : tokens [] = [] := by rw [tokens]; rfl

theorem tokens_of_takeToken? {path rest : Path} {token : Segment}
    (h : takeToken? path = some (token, rest)) : tokens path = token :: tokens rest := by
  rw [tokens]
  split
  · simp_all
  · rename_i h'
    rw [h] at h'
    cases h'
    rfl

theorem tokens_of_takeToken?_none {path : Path} (h : takeToken? path = none) :
    tokens path = [] := by
  rw [tokens]
  split
  · rfl
  · simp_all

theorem tokens_append {token rest : Path} (h : delimiter ∉ token) :
    tokens (token ++ delimiter :: rest) = token :: tokens rest :=
  tokens_of_takeToken? (takeToken?_append h)

theorem tokens_self {token : Path} (h : delimiter ∉ token) (hne : token ≠ []) :
    tokens token = [token] := by
  rw [tokens_of_takeToken? (takeToken?_self h hne), tokens_nil]

theorem delimiter_not_mem {path : Path} : ∀ token ∈ tokens path, delimiter ∉ token := by
  fun_induction tokens path with
  | case1 => simp
  | case2 path token rest h ih =>
      intro t ht
      rcases List.mem_cons.mp ht with rfl | ht
      · exact (takeToken?_eq_some h).1
      · exact ih t ht

/-! ### Pieces -/

theorem pieces_append {piece rest : Path} (h : delimiter ∉ piece) :
    pieces (piece ++ delimiter :: rest) = piece :: pieces rest := by
  induction piece with
  | nil => simp [pieces]
  | cons c piece ih =>
      have hc : c ≠ delimiter := fun e => h (by simp [e])
      simp [pieces, hc, ih fun hm => h (List.mem_cons_of_mem _ hm)]

theorem pieces_self {piece : Path} (h : delimiter ∉ piece) : pieces piece = [piece] := by
  induction piece with
  | nil => rfl
  | cons c piece ih =>
      have hc : c ≠ delimiter := fun e => h (by simp [e])
      simp [pieces, hc, ih fun hm => h (List.mem_cons_of_mem _ hm)]

theorem mem_pieces_of_mem_tokens {path : Path} {t : Segment} (h : t ∈ tokens path) :
    t ∈ pieces path := by
  fun_induction tokens path with
  | case1 => simp at h
  | case2 path token rest ht ih =>
      obtain ⟨hd, rfl | ⟨rfl, rfl⟩⟩ := takeToken?_eq_some ht
      · rw [pieces_append hd]
        rcases List.mem_cons.mp h with rfl | h
        · exact List.mem_cons_self
        · exact List.mem_cons_of_mem _ (ih h)
      · rw [pieces_self hd]
        simpa using h

/-! ### Below the root -/

theorem belowRoot?_eq_none {path : Path} :
    belowRoot? path = none ↔ path ≠ [] ∧ path.head? ≠ some '/' := by
  cases path with
  | nil => simp [belowRoot?]
  | cons c path =>
      rw [belowRoot?]
      by_cases hc : c = delimiter <;> simp [hc, show delimiter = '/' from rfl]

theorem belowRoot?_eq_some {path rest : Path} (h : belowRoot? path = some rest) :
    rest = path.drop 1 := by
  cases path with
  | nil => exact (Option.some.inj h).symm
  | cons c path =>
      rw [belowRoot?] at h
      split at h
      · exact (Option.some.inj h).symm
      · cases h

/-- The leading delimiter cuts off an empty piece. -/
theorem exists_piece_belowRoot {path rest : Path} (h : belowRoot? path = some rest)
    {P : Segment → Prop} (hP : ¬ P []) :
    (∃ piece ∈ pieces path, P piece) ↔ ∃ piece ∈ pieces rest, P piece := by
  cases path with
  | nil =>
      cases h
      rfl
  | cons c path =>
      rw [belowRoot?] at h
      split at h
      · rename_i hc
        cases h
        rw [pieces, if_pos hc]
        simp [hP]
      · cases h

/-! ### The tail behind a token -/

/-- The tail of a text from the end of its first part. -/
theorem tailFrom_append (a b : Path) : tailFrom (byteLength a) (a ++ b) = b := by
  rw [tailFrom, dropBytes_byteLength_append]
  rfl

/-- Past the end there is no tail. -/
theorem tailFrom_past (text : Path) (n : Nat) : tailFrom (byteLength text + n + 1) text = [] := by
  induction text with
  | nil => simp [tailFrom, dropBytes]
  | cons c text ih =>
      have hpos := c.utf8Size_pos
      obtain ⟨k, hk⟩ : ∃ k, byteLength (c :: text) + n + 1 = k + 1 := ⟨_, rfl⟩
      have hle : c.utf8Size ≤ k + 1 := by rw [← hk, byteLength_cons]; omega
      have hsub : k + 1 - c.utf8Size = byteLength text + n + 1 := by
        rw [← hk, byteLength_cons]; omega
      rw [hk, tailFrom, dropBytes, if_pos hle, hsub]
      exact ih

/-- `rest` is what remains of a path from byte position `n` on, or nothing does and `n` is past the
end. -/
def Remains (path : Path) (n : Nat) (rest : Path) : Prop :=
  (∃ front, path = front ++ rest ∧ byteLength front = n) ∨ rest = [] ∧ byteLength path < n

theorem remains_belowRoot {path rest : Path} (h : belowRoot? path = some rest) :
    Remains path 1 rest := by
  cases path with
  | nil =>
      cases h
      exact .inr ⟨rfl, by decide⟩
  | cons c path =>
      rw [belowRoot?] at h
      split at h
      · rename_i hc
        cases h
        exact .inl ⟨[c], rfl, by rw [hc]; decide⟩
      · cases h

theorem Remains.tailFrom {path rest : Path} {n : Nat} (h : Remains path n rest) :
    tailFrom n path = rest := by
  obtain ⟨front, rfl, rfl⟩ | ⟨rfl, hlt⟩ := h
  · exact tailFrom_append front rest
  · obtain ⟨k, rfl⟩ : ∃ k, n = byteLength path + k + 1 := ⟨n - byteLength path - 1, by omega⟩
    exact tailFrom_past path k

/-- Behind a token of the rest and its delimiter. -/
theorem Remains.token {path rest remainder : Path} {n : Nat} {token : Segment}
    (h : Remains path n rest) (ht : takeToken? rest = some (token, remainder)) :
    Remains path (n + (byteLength token + 1)) remainder := by
  obtain ⟨-, hrest⟩ := takeToken?_eq_some ht
  obtain ⟨front, rfl, rfl⟩ | ⟨rfl, -⟩ := h
  · rcases hrest with rfl | ⟨rfl, rfl⟩
    · exact .inl ⟨front ++ (token ++ [delimiter]), by simp, by simp⟩
    · exact .inr ⟨rfl, by simp [← Nat.add_assoc]⟩
  · simp [takeToken?_nil] at ht

/-- The bytes that segments take in a path, each with one delimiter. -/
def span (segments : List Segment) : Nat :=
  (segments.map fun segment => byteLength segment + 1).sum

@[simp] theorem span_nil : span [] = 0 := rfl

@[simp] theorem span_cons (segment : Segment) (segments : List Segment) :
    span (segment :: segments) = byteLength segment + 1 + span segments := by
  simp [span]

/-- **What remains behind some tokens** has the tokens that follow them. -/
theorem Remains.tokens {path rest : Path} {n : Nat} {front back : List Segment}
    (h : Remains path n rest) (ht : tokens rest = front ++ back) :
    Path.tokens (Path.tailFrom (n + span front) path) = back := by
  induction front generalizing n rest with
  | nil =>
      rw [span_nil, Nat.add_zero, h.tailFrom]
      exact ht
  | cons token front ih =>
      cases htake : takeToken? rest with
      | none =>
          rw [tokens_of_takeToken?_none htake] at ht
          cases ht
      | some taken =>
          obtain ⟨token', remainder⟩ := taken
          rw [tokens_of_takeToken? htake, List.cons_append] at ht
          injection ht with h₁ h₂
          subst h₁
          rw [span_cons, ← Nat.add_assoc]
          exact ih (h.token htake) h₂

end VirtualFs.Path
