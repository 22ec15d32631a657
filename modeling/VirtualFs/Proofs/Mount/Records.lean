import VirtualFs.Mount.Resolution
import VirtualFs.Proofs.Mount.Regular

/-!
# Which node owns which record

`g.record? id` is the record of the driver that node `id` owns, if there is one.  An operation on a
regular graph changes the record of one node at most: attaching gives a record to a node that owns
none, and detaching takes away the one of a node.

* `Regular.record?_attach`, `Regular.record?_mount`: what attaching comes to.
* `Regular.detach_cases`, `Regular.record?_unmount`: what detaching comes to.
* `exists_record?_of_resolve`: a path is served by the record of a node.
-/

namespace VirtualFs.Mount.Graph

variable {ρ : Type} {g h : Graph ρ} {id : NodeId} {node : Node ρ}

/-- The record of the driver that a node owns. -/
def record? (g : Graph ρ) (id : NodeId) : Option ρ :=
  (g.node? id).bind (·.driver)

theorem record?_of_node? (hn : g.node? id = some node) : g.record? id = node.driver := by
  rw [record?, hn, Option.bind_some]

theorem exists_node_of_record? {record : ρ} (h : g.record? id = some record) :
    ∃ node, g.node? id = some node ∧ node.driver = some record :=
  Option.bind_eq_some_iff.mp h

theorem record?_withLimit (limit : Nat) (id : NodeId) :
    (withLimit limit : Graph ρ).record? id = none := by
  rw [record?, node?_withLimit]
  split <;> rfl

theorem record?_withDriver (hn : g.node? id = some node) (driver : Option ρ) (j : NodeId) :
    (g.withDriver id node driver).record? j = if j = id then driver else g.record? j := by
  rw [record?, record?, node?_withDriver hn]
  split <;> rfl

/-- Growing gives no record to anyone. -/
theorem Grown.record?_eq {added : List NodeId} (k : g.Grown added h) (j : NodeId) :
    h.record? j = g.record? j := by
  by_cases hj : j ∈ added
  · obtain ⟨node, hn, hd⟩ := k.idle j hj
    rw [record?_of_node? hn, hd, record?, k.fresh hj, Option.bind_none]
  · rw [record?, record?, ← k.without, node?_without_of_not_mem hj]
    cases h.node? j <;> rfl

/-- Taking out what leads nowhere takes no record from anyone. -/
theorem Barren.record?_eq {gone : List NodeId} (hb : g.Barren gone) (j : NodeId) :
    (g.without gone).record? j = g.record? j := by
  by_cases hj : j ∈ gone
  · obtain ⟨node, hn⟩ := hb.live j hj
    rw [record?, node?_without, if_pos hj, Option.bind_none, record?_of_node? hn]
    cases hd : node.driver with
    | none => rfl
    | some record =>
        refine absurd ⟨j, .refl, ?_⟩ (hb.nowhere j hj)
        rw [ownsDriver_of_node? hn, hd]
        rfl
  · rw [record?, record?, node?_without_of_not_mem hj]
    cases g.node? j <;> rfl

namespace Attached

variable {segments : List Segment} {record : ρ}

/-- The node had no record. -/
theorem record?_eq_none (a : g.Attached segments record id h) : g.record? id = none := by
  obtain ⟨added, k, node, hgrown, -, -, -, hn, hd, -, rfl⟩ := a.exists_grown
  rw [← hgrown.record?_eq, record?_of_node? hn, hd]

/-- It is the one that has the record now. -/
theorem record?_eq (a : g.Attached segments record id h) (j : NodeId) :
    h.record? j = if j = id then some record else g.record? j := by
  obtain ⟨added, k, node, hgrown, -, -, -, hn, -, -, rfl⟩ := a.exists_grown
  rw [record?_withDriver hn, hgrown.record?_eq]

end Attached

/-! ### What operations come to -/

/-- A record has been given to a node that had none. -/
structure Gives (g : Graph ρ) (id : NodeId) (record : ρ) (h : Graph ρ) : Prop where
  vacant : g.record? id = none
  records : ∀ j, h.record? j = if j = id then some record else g.record? j

/-- A record has been taken from its node. -/
structure Takes (g : Graph ρ) (id : NodeId) (record : ρ) (h : Graph ρ) : Prop where
  owned : g.record? id = some record
  records : ∀ j, h.record? j = if j = id then none else g.record? j

namespace Regular

variable {path : Path} {record : ρ} {changes : List Change}

/-- **Attaching** gives the record to one node, or to none. -/
theorem record?_attach (r : g.Regular) {answer : Except Error NodeId}
    (hattach : g.attach path record = .ok ⟨h, changes, answer⟩) :
    (∃ e, answer = .error e ∧ ∀ j, h.record? j = g.record? j) ∨
    ∃ id, answer = .ok id ∧ g.Gives id record h := by
  rcases r.attach path record with
    ⟨h', changes', e, heq, hgrown, -⟩ | ⟨rest, h', changes', id, -, heq, -, ha⟩
  · cases hattach.symm.trans heq
    exact .inl ⟨e, rfl, hgrown.record?_eq⟩
  · cases hattach.symm.trans heq
    exact .inr ⟨id, rfl, ha.record?_eq_none, ha.record?_eq⟩

theorem record?_mount (r : g.Regular) {answer : Except Error NodeId}
    (hmount : g.mount path record = .ok ⟨h, changes, answer⟩) :
    (∃ e, answer = .error e ∧ ∀ j, h.record? j = g.record? j) ∨
    ∃ id, answer = .ok id ∧ g.Gives id record h := by
  rw [Graph.mount] at hmount
  split at hmount
  · cases hmount
    exact .inl ⟨_, rfl, fun _ => rfl⟩
  · exact r.record?_attach hmount

variable [DecidableEq ρ]

/-- **Detaching** takes the record from the node, if the node owns it, and changes nothing if
not. -/
theorem detach_cases (r : g.Regular) {answer : Except Error ρ}
    (hdetach : g.detach id record = .ok ⟨h, changes, answer⟩) :
    (answer = .ok record ∧ g.Takes id record h) ∨
    (g.record? id ≠ some record ∧ answer = .error .notFound ∧ h = g) := by
  by_cases howned : g.record? id = some record
  · obtain ⟨node, hn, hd⟩ := exists_node_of_record? howned
    obtain ⟨gone, changes', heq, hgone, -⟩ := r.detach hn hd
    cases hdetach.symm.trans heq
    refine .inl ⟨rfl, howned, fun j => ?_⟩
    rw [hgone.record?_eq, record?_withDriver hn]
  · have hnot : ∀ node, g.node? id = some node → node.driver ≠ some record := fun node hn hd =>
      howned ((record?_of_node? hn).trans hd)
    cases hdetach.symm.trans (detach_notFound hnot)
    exact .inr ⟨howned, rfl, rfl⟩

theorem record?_detach (r : g.Regular) {answer : Except Error ρ}
    (hdetach : g.detach id record = .ok ⟨h, changes, answer⟩) :
    (∃ e, answer = .error e ∧ ∀ j, h.record? j = g.record? j) ∨
    answer = .ok record ∧ g.Takes id record h := by
  rcases r.detach_cases hdetach with htakes | ⟨-, rfl, rfl⟩
  · exact .inr htakes
  · exact .inl ⟨_, rfl, fun _ => rfl⟩

theorem record?_unmount (r : g.Regular) {answer : Except Error ρ}
    (hunmount : g.unmount path = .ok ⟨h, changes, answer⟩) :
    (∃ e, answer = .error e ∧ ∀ j, h.record? j = g.record? j) ∨
    ∃ id record, answer = .ok record ∧ g.Takes id record h := by
  rw [Graph.unmount] at hunmount
  cases hm : g.mounted? path with
  | none =>
      rw [hm] at hunmount
      cases hunmount
      exact .inl ⟨_, rfl, fun _ => rfl⟩
  | some found =>
      rw [hm] at hunmount
      exact (r.record?_detach hunmount).imp_right fun h => ⟨found.1, found.2, h⟩

end Regular

/-- **A path is served** by the record of a node. -/
theorem exists_record?_of_resolve {path : Path} {record : ρ} {offset : Nat}
    (h : g.resolve path = .ok (.driver record offset)) : ∃ id, g.record? id = some record := by
  rw [resolve] at h
  cases hs : g.serving? path with
  | none =>
      rw [hs] at h
      dsimp only at h
      split at h <;> cases h
  | some found =>
      rw [hs] at h
      cases h
      rw [serving?] at hs
      simp only [bind, Option.bind_eq_some_iff, pure, Option.some.injEq] at hs
      obtain ⟨id, -, node, hn, found, hd, rfl, -⟩ := hs
      exact ⟨id, (record?_of_node? hn).trans hd⟩

end VirtualFs.Mount.Graph
