/-!
# Since

What a history says is in force: something has happened, and nothing since has put an end to it
(`Since`).  A history is a list, the latest at the end.

* `since_append`: what is in force after two stretches.
* `since_concat`: what is in force after one more step.
-/

namespace VirtualFs

variable {α : Type} {P Q : α → Prop} {past a b : List α} {now x : α}

/-- `x` is of the past and starts what is in force: no step after it puts an end to that. -/
def Since (starts ends : α → Prop) (past : List α) (x : α) : Prop :=
  ∃ a b, past = a ++ x :: b ∧ starts x ∧ ∀ y ∈ b, ¬ ends y

theorem since_append :
    Since P Q (a ++ b) x ↔ Since P Q b x ∨ (Since P Q a x ∧ ∀ y ∈ b, ¬ Q y) := by
  constructor
  · rintro ⟨c, d, heq, hx, hd⟩
    rcases List.append_eq_append_iff.mp heq with ⟨e, rfl, rfl⟩ | ⟨e, rfl, heq'⟩
    · exact .inl ⟨e, d, rfl, hx, hd⟩
    · cases e with
      | nil => exact .inl ⟨[], d, by simpa using heq'.symm, hx, hd⟩
      | cons y e =>
        obtain ⟨rfl, rfl⟩ := List.cons.inj heq'
        exact .inr ⟨⟨c, e, rfl, hx, fun y hy => hd y (by simp [hy])⟩,
          fun y hy => hd y (by simp [hy])⟩
  · rintro (⟨c, d, rfl, hx, hd⟩ | ⟨⟨c, d, rfl, hx, hd⟩, hb⟩)
    · exact ⟨a ++ c, d, by simp, hx, hd⟩
    · exact ⟨c, d ++ b, by simp, hx, fun y hy => (List.mem_append.mp hy).elim (hd y) (hb y)⟩

theorem not_since_nil : ¬ Since P Q [] x := by
  rintro ⟨a, b, heq, -⟩
  simp at heq

theorem since_singleton : Since P Q [now] x ↔ x = now ∧ P now := by
  constructor
  · rintro ⟨a, b, heq, hx, -⟩
    obtain ⟨rfl, h⟩ | ⟨c, rfl, h⟩ := List.cons_eq_append_iff.mp heq
    · obtain ⟨rfl, -⟩ := List.cons.inj h
      exact ⟨rfl, hx⟩
    · simp at h
  · rintro ⟨rfl, hx⟩
    exact ⟨[], [], rfl, hx, by simp⟩

theorem since_concat :
    Since P Q (past ++ [now]) x ↔ (x = now ∧ P now) ∨ (Since P Q past x ∧ ¬ Q now) := by
  rw [since_append, since_singleton]
  simp

/-- A place in a history that goes on for one more step is that step, or was there before. -/
theorem concat_eq_append_cons (h : past ++ [now] = a ++ x :: b) :
    (a = past ∧ x = now ∧ b = []) ∨ ∃ b', past = a ++ x :: b' ∧ b = b' ++ [now] := by
  obtain rfl | ⟨b, z, rfl⟩ := b.eq_nil_or_concat
  · obtain ⟨rfl, hx⟩ := List.append_inj' h rfl
    obtain rfl := List.singleton_inj.mp hx
    exact .inl ⟨rfl, rfl, rfl⟩
  · obtain ⟨rfl, hz⟩ := List.append_inj' (h.trans (by simp : _ = (a ++ x :: b) ++ [z])) rfl
    obtain rfl := List.singleton_inj.mp hz
    exact .inr ⟨b, rfl, List.concat_eq_append⟩

end VirtualFs
