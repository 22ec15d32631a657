import VirtualFs.Proofs.Mount.Operations

/-!
# What cleaning takes out

Cleaning is used where an attachment ends halfway and where a driver has been detached, so on graphs
in which some branches lead to no driver.  On any tree, whatever its branches lead to, it takes out
from the given node downwards what leads to no driver, but does not look beyond a node that owns
one (`IsTree.cleans`).

* `Spans.mem_fallen_iff`: which nodes go.
* `clean_exact`: what cleaning leaves, and that between two operations it leaves everything.
-/

namespace VirtualFs.Mount.Graph

variable {ρ : Type} {g : Graph ρ} {id : NodeId}

/-- The way down to a node leads past no driver. -/
def Reaches (g : Graph ρ) : NodeId → NodeId → Prop :=
  Relation.ReflTransGen fun a b => g.Links a b ∧ g.ownsDriver a = false

/-- `h` is `g` with the node `id` cleaned, for which the nodes `gone` had to go. -/
structure Cleaned (g : Graph ρ) (id : NodeId) (gone : List NodeId) (h : Graph ρ) : Prop where
  /-- What goes leads to no driver, and no driver is on the way to it. -/
  mem_iff : ∀ j, j ∈ gone ↔ j ≠ 0 ∧ g.Reaches id j ∧
    ∀ k, Relation.ReflTransGen g.Links j k → g.ownsDriver k = false
  nodup : gone.Nodup
  lived : ∀ j ∈ gone, (g.node? j).isSome = true
  /-- The other nodes are what they were, but for the children that go. -/
  node : ∀ j, h.node? j = if j ∈ gone then none else (g.node? j).map fun node =>
    { node with children := node.children.filter (· ∉ gone) }
  /-- Every slot that was taken is given back once. -/
  free : ∀ j, h.free.count j = g.free.count j + if j ∈ gone then 1 else 0
  live : h.live + gone.length = g.live
  size : h.nodes.size = g.nodes.size
  limit : h.limit = g.limit

/-- No driver is on the way to what falls. -/
theorem Spans.reaches_of_mem_fallen {t : Tree} (h : g.Spans t) {j : NodeId}
    (hj : j ∈ t.fallen g.ownsDriver) : g.Reaches t.id j := by
  induction t with
  | node id below ih =>
      cases h with
      | node h hc hb =>
          rename_i node
          rw [Tree.fallen] at hj
          split at hj
          · cases hj
          · rename_i hown
            rcases List.mem_append.mp hj with hj | hj
            · obtain ⟨t, ht, hjt⟩ := List.mem_flatMap.mp hj
              have hl : g.Links id t.id := ⟨node, h, hc ▸ List.mem_map_of_mem ht⟩
              exact .head ⟨hl, Bool.eq_false_iff.mpr hown⟩ (ih t ht (hb t ht) hjt)
            · split at hj
              · cases hj
              · rw [List.mem_singleton.mp hj]
                exact .refl

/-- What leads to no driver falls, if the way to it leads past none. -/
theorem Spans.mem_fallen_of_reaches (w : g.IsTree) {t : Tree} (h : g.Spans t) {j : NodeId}
    (hne : j ≠ root) (hreach : g.Reaches t.id j) (hj : ¬ g.Leads j) :
    j ∈ t.fallen g.ownsDriver := by
  induction t with
  | node id below ih =>
      rcases Relation.ReflTransGen.cases_head hreach with rfl | ⟨c, ⟨hl, hown⟩, hcj⟩
      · refine (Tree.id_mem_fallen _ (h.nodup_ids w)).mpr (Bool.eq_false_iff.mpr fun hstays => ?_)
        exact ((h.stays_iff w).mp hstays).elim hne hj
      · cases h with
        | node h hc hb =>
            obtain ⟨node', h', hmem⟩ := hl
            cases h.symm.trans h'
            obtain ⟨t, ht, rfl⟩ := List.mem_map.mp (hc ▸ hmem)
            rw [Tree.fallen, if_neg (by rw [show g.ownsDriver id = false from hown]; simp)]
            exact List.mem_append_left _ (List.mem_flatMap.mpr ⟨t, ht, ih t ht (hb t ht) hcj⟩)

/-- **What falls** are the nodes that lead to no driver and are reached past none. -/
theorem Spans.mem_fallen_iff (w : g.IsTree) {t : Tree} (h : g.Spans t) {j : NodeId} :
    j ∈ t.fallen g.ownsDriver ↔ j ≠ root ∧ g.Reaches t.id j ∧ ¬ g.Leads j :=
  ⟨fun hj => ⟨fun e => t.root_not_mem_fallen (e ▸ hj), h.reaches_of_mem_fallen hj,
    h.not_leads w hj⟩, fun ⟨hne, hreach, hj⟩ => h.mem_fallen_of_reaches w hne hreach hj⟩

/-- **Cleaning a node** of a tree takes out what falls below it, and answers whether it is left. -/
theorem IsTree.cleans (w : g.IsTree) (n : g.Counted) {node : Node ρ} (hn : g.node? id = some node) :
    ∃ gone h, g.prune id = .ok ⟨h, g.removals gone, (h.node? id).isSome⟩ ∧
      g.Cleaned id gone h := by
  obtain ⟨t, rfl, hspans⟩ := w.exists_spans hn
  have hnodup := Tree.nodup_fallen g.ownsDriver (hspans.nodup_ids w)
  have hlive := hspans.fallen_live g.ownsDriver w
  have hanswer : ((g.without (t.fallen g.ownsDriver)).node? t.id).isSome =
      t.stays g.ownsDriver := by
    have hid := Tree.id_mem_fallen g.ownsDriver (hspans.nodup_ids w)
    rw [node?_without, hn]
    cases hstays : t.stays g.ownsDriver <;> simp [hid, hstays]
  refine ⟨t.fallen g.ownsDriver, _, by rw [prune_eq w n hspans, hanswer],
    { mem_iff := fun j => ?_
      nodup := hnodup
      lived := fun j hj => Option.isSome_iff_exists.mpr (hlive j hj)
      node := node?_without g _
      free := fun j => ?_
      live := Nat.sub_add_cancel (n.length_le_live hnodup hlive)
      size := size_without g _
      limit := rfl }⟩
  · rw [hspans.mem_fallen_iff w, Leads, not_exists]
    refine and_congr_right' (and_congr_right' (forall_congr' fun k => ?_))
    rw [not_and, Bool.not_eq_true]
    rfl
  · rw [Graph.without, List.count_append, List.count_reverse, hnodup.count, Nat.add_comm]

/-- **Cleaning** a node of any tree, as an attachment that ends halfway or a detached driver leaves
it: a dead number changes nothing, and otherwise exactly what leads to no driver goes.  Between two
operations that is nothing. -/
theorem clean_exact [DecidableEq ρ] :
    (∀ g : Graph ρ, g.IsTree → g.Counted → ∀ id, match g.node? id with
      | none => g.prune id = .ok ⟨g, [], false⟩
      | some _ => ∃ gone h, g.prune id = .ok ⟨h, g.removals gone, (h.node? id).isSome⟩ ∧
          g.Cleaned id gone h) ∧
    ∀ (limit : Nat) (operations : List (Operation ρ)), ∃ g, operate limit operations = .ok g ∧
      ∀ id, g.prune id = .ok ⟨g, [], (g.node? id).isSome⟩ := by
  refine ⟨fun g w n id => ?_, fun limit operations => ?_⟩
  · split
    · exact prune_dead ‹_›
    · exact w.cleans n ‹_›
  · have hstart : (withLimit limit : Graph ρ).Regular := regular_withLimit limit
    obtain ⟨g, hrun, r, -⟩ := hstart.foldlM_operation operations
    exact ⟨g, hrun, r.prune⟩

/-- A driver is attached at `/b/c`, and an attachment at `/a/d` has ended halfway. -/
def halfway : Graph Nat where
  nodes := #[some ⟨[], 1, none, [3, 1], none⟩, some ⟨['b'], 3, none, [2], some 0⟩,
    some ⟨['c'], 5, some 7, [], some 1⟩, some ⟨['a'], 3, none, [5], some 0⟩, none,
    some ⟨['d'], 5, none, [], some 3⟩]
  free := [4]
  limit := 6
  live := 5

theorem isTree_halfway : halfway.IsTree where
  root := ⟨_, rfl, rfl⟩
  up h hne := by
    have hup : ∀ id < 6, ∀ node ∈ halfway.node? id, id = 0 ∨ ∃ parent ∈ node.parent,
      ∃ above ∈ halfway.node? parent, id ∈ above.children := by decide
    obtain ⟨parent, hparent, above, habove, hmem⟩ :=
      (hup _ (lt_size_of_node? h) _ h).resolve_left hne
    exact ⟨parent, above, hparent, habove, hmem⟩
  down h hc := by
    have hdown : ∀ id < 6, ∀ node ∈ halfway.node? id, ∀ child ∈ node.children,
      ∃ below ∈ halfway.node? child, below.parent = some id := by decide
    exact hdown _ (lt_size_of_node? h) _ h _ hc
  acyclic id hcycle := by
    have hless : ∀ id < 6, ∀ node ∈ halfway.node? id, ∀ child ∈ node.children, id < child := by
      decide
    have hlt : Relation.TransGen (· < ·) id id :=
      hcycle.lift (fun i => i) fun a b ⟨node, h, hmem⟩ => hless a (lt_size_of_node? h) node h b hmem
    rw [Relation.transGen_eq_self] at hlt
    exact Nat.lt_irrefl id hlt
  sorted h := by
    have hsorted : ∀ id < 6, ∀ node ∈ halfway.node? id, node.children.Pairwise fun a b =>
      Segment.order (halfway.segment a) (halfway.segment b) = .lt := by decide
    exact hsorted _ (lt_size_of_node? h) _ h

/-- The half-done attachment goes, and the driver stays. -/
theorem clean_exact_halfway : halfway.IsTree ∧ halfway.Counted ∧
    (∃ gone h, halfway.prune 0 = .ok ⟨h, halfway.removals gone, (h.node? 0).isSome⟩ ∧
      halfway.Cleaned 0 gone h) ∧
    (halfway.prune 0).map Edit.changes = .ok [.removed ['d'] 5, .removed ['a'] 3] :=
  ⟨isTree_halfway, rfl, (@clean_exact Nat _).1 halfway isTree_halfway rfl 0, by cbv⟩

end VirtualFs.Mount.Graph
