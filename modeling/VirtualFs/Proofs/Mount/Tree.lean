import Mathlib.Algebra.Order.BigOperators.Group.List
import Mathlib.Algebra.Order.Ring.Nat
import Mathlib.Data.List.Nodup
import Mathlib.Data.List.Perm.Subperm
import VirtualFs.Proofs.Mount.WellLinked

/-!
# The tree in the arena

Proofs that follow the shape of a graph go by induction on a `Tree` of node numbers.  `Spans g t`
says that the nodes of `t` are those of `g` from `t`'s top downwards.

* `IsTree.exists_spans`: there is such a tree at every node.
* `Spans.mem_ids`, `Spans.nodup_ids`: it has every node below its top, each once.
* `Spans.length_le`: so it has no more nodes than the arena has slots.
* `Counted`: the nodes are counted, as they are where the free list holds the dead numbers
  (`Numbered.counted`).
-/

namespace VirtualFs.Mount

/-- A tree of node numbers. -/
inductive Tree where
  | node (id : NodeId) (below : List Tree)

namespace Tree

@[induction_eliminator]
theorem induct {motive : Tree → Prop}
    (node : ∀ id below, (∀ t ∈ below, motive t) → motive (.node id below)) (t : Tree) : motive t :=
  match t with
  | .node id below => node id below fun t _ => induct node t

/-- The number at the top. -/
def id : Tree → NodeId
  | node id _ => id

/-- All numbers, each before those below it. -/
def ids : Tree → List NodeId
  | node id below => id :: below.flatMap ids

theorem id_mem_ids (t : Tree) : t.id ∈ t.ids := by
  cases t
  rw [ids]
  exact List.mem_cons_self

end Tree

namespace Graph

variable {ρ : Type} {g : Graph ρ}

/-- The nodes of the tree are the nodes of the graph, from the top of the tree downwards. -/
inductive Spans (g : Graph ρ) : Tree → Prop where
  | node {id : NodeId} {below : List Tree} {node : Node ρ} (h : g.node? id = some node)
      (hc : node.children = below.map Tree.id) (hb : ∀ t ∈ below, Spans g t) :
      Spans g (.node id below)

theorem Spans.exists_node {t : Tree} (h : g.Spans t) : ∃ node, g.node? t.id = some node := by
  cases h with
  | node h _ _ => exact ⟨_, h⟩

/-- Subtrees for all numbers of a list. -/
theorem exists_trees {P : Tree → Prop} {ids : List NodeId}
    (h : ∀ id ∈ ids, ∃ t : Tree, t.id = id ∧ P t) :
    ∃ ts : List Tree, ts.map Tree.id = ids ∧ ∀ t ∈ ts, P t := by
  induction ids with
  | nil => exact ⟨[], rfl, by simp⟩
  | cons id ids ih =>
      obtain ⟨t, rfl, ht⟩ := h id List.mem_cons_self
      obtain ⟨ts, rfl, hts⟩ := ih fun id hid => h id (List.mem_cons_of_mem _ hid)
      exact ⟨t :: ts, rfl, by simpa [ht] using hts⟩

/-- Different numbers below the size of the arena are no more than it has slots. -/
theorem length_le_size {ids : List NodeId} (hnodup : ids.Nodup)
    (hlt : ∀ id ∈ ids, id < g.nodes.size) : ids.length ≤ g.nodes.size := by
  have hsub : ids ⊆ List.range g.nodes.size := fun id hid => List.mem_range.mpr (hlt id hid)
  simpa using (List.subperm_of_subset hnodup hsub).length_le

/-- Different nodes above a node are fewer than the slots of the arena. -/
theorem IsTree.length_lt_size (w : g.IsTree) {id : NodeId} {node : Node ρ}
    (h : g.node? id = some node) {above : List NodeId} (hnodup : above.Nodup)
    (habove : ∀ j ∈ above, Relation.TransGen g.Links j id) : above.length < g.nodes.size := by
  refine length_le_size (hnodup.cons fun hid => w.acyclic id (habove id hid)) fun j hj => ?_
  rcases List.mem_cons.mp hj with rfl | hj
  · exact lt_size_of_node? h
  · obtain ⟨c, ⟨node', h', -⟩, -⟩ := Relation.TransGen.head'_iff.mp (habove j hj)
    exact lt_size_of_node? h'

/-- **Every node has its tree.** -/
theorem IsTree.exists_spans (w : g.IsTree) {id : NodeId} {node : Node ρ}
    (h : g.node? id = some node) : ∃ t : Tree, t.id = id ∧ g.Spans t := by
  -- by induction on how many slots are left for nodes below, when those above are listed
  suffices key : ∀ (n : Nat) (above : List NodeId), g.nodes.size - above.length = n →
      above.Nodup → ∀ {id node}, g.node? id = some node →
      (∀ j ∈ above, Relation.TransGen g.Links j id) → ∃ t : Tree, t.id = id ∧ g.Spans t from
    key _ [] rfl .nil h (by simp)
  intro n
  induction n using Nat.strongRecOn with
  | _ n ih =>
      intro above hn hnodup id node h habove
      have hlt := w.length_lt_size h hnodup habove
      have hfresh : id ∉ above := fun hid => w.acyclic id (habove id hid)
      have hchildren : ∀ c ∈ node.children, ∃ t : Tree, t.id = c ∧ g.Spans t := by
        intro c hc
        have hl : g.Links id c := ⟨node, h, hc⟩
        obtain ⟨below, hb⟩ := w.exists_of_links hl
        refine ih (g.nodes.size - (id :: above).length) (by rw [List.length_cons]; omega)
          (id :: above) rfl (hnodup.cons hfresh) hb fun j hj => ?_
        rcases List.mem_cons.mp hj with rfl | hj
        · exact .single hl
        · exact (habove j hj).tail hl
      obtain ⟨ts, hts, hspans⟩ := exists_trees hchildren
      exact ⟨.node id ts, rfl, .node h hts.symm hspans⟩

/-- The numbers of the tree are those below its top. -/
theorem Spans.mem_ids {t : Tree} (h : g.Spans t) {j : NodeId} :
    j ∈ t.ids ↔ g.Below t.id j := by
  induction t with
  | node id below ih =>
      cases h with
      | node h hc hb =>
          rename_i node
          rw [Tree.ids, List.mem_cons, List.mem_flatMap]
          constructor
          · rintro (rfl | ⟨t, ht, hj⟩)
            · exact .refl
            · have hl : g.Links id t.id := ⟨node, h, hc ▸ List.mem_map_of_mem ht⟩
              exact .head hl ((ih t ht (hb t ht)).mp hj)
          · intro hj
            rcases Relation.ReflTransGen.cases_head hj with rfl | ⟨c, ⟨node', h', hmem⟩, hcj⟩
            · exact .inl rfl
            · rw [show g.node? id = some node' from h'] at h
              cases h
              obtain ⟨t, ht, rfl⟩ := List.mem_map.mp (hc ▸ hmem)
              exact .inr ⟨t, ht, (ih t ht (hb t ht)).mpr hcj⟩

/-- No number is in the tree twice. -/
theorem Spans.nodup_ids (w : g.IsTree) {t : Tree} (h : g.Spans t) : t.ids.Nodup := by
  induction t with
  | node id below ih =>
      cases h with
      | node h hc hb =>
          rename_i node
          have hlink : ∀ t ∈ below, g.Links id t.id := fun t ht =>
            ⟨node, h, hc ▸ List.mem_map_of_mem ht⟩
          rw [Tree.ids, List.nodup_cons, List.nodup_flatMap]
          refine ⟨?_, fun t ht => ih t ht (hb t ht), ?_⟩
          · rw [List.mem_flatMap]
            rintro ⟨t, ht, hid⟩
            exact w.not_below_of_links (hlink t ht) ((hb t ht).mem_ids.mp hid)
          · have hnodup : (below.map Tree.id).Nodup := hc ▸ w.nodup_children h
            refine (List.pairwise_map.mp hnodup).imp_of_mem fun {a b} ha hb' hne j hja hjb => hne ?_
            exact w.sibling_eq (hlink a ha) (hlink b hb') ((hb a ha).mem_ids.mp hja)
              ((hb b hb').mem_ids.mp hjb)

theorem Spans.exists_of_mem {t : Tree} (w : g.IsTree) (h : g.Spans t) {j : NodeId}
    (hj : j ∈ t.ids) : ∃ node, g.node? j = some node := by
  obtain ⟨top, htop⟩ := h.exists_node
  exact w.exists_of_below (h.mem_ids.mp hj) htop

/-- **A tree has no more nodes than the arena has slots.** -/
theorem Spans.length_le (w : g.IsTree) {t : Tree} (h : g.Spans t) :
    t.ids.length ≤ g.nodes.size :=
  length_le_size (h.nodup_ids w) fun _ hid => lt_size_of_node? (h.exists_of_mem w hid).choose_spec

/-! ### How many nodes there are -/

/-- The numbers that nodes have, in ascending order. -/
def liveIds (g : Graph ρ) : List NodeId :=
  (List.range g.nodes.size).filter fun id => (g.node? id).isSome

theorem mem_liveIds {id : NodeId} : id ∈ g.liveIds ↔ (g.node? id).isSome = true := by
  rw [liveIds, List.mem_filter, List.mem_range, and_iff_right_iff_imp]
  intro hlive
  obtain ⟨node, hn⟩ := Option.isSome_iff_exists.mp hlive
  exact lt_size_of_node? hn

theorem nodup_liveIds (g : Graph ρ) : g.liveIds.Nodup :=
  List.nodup_range.filter _

/-- There are as many nodes as are counted. -/
def Counted (g : Graph ρ) : Prop := g.liveIds.length = g.live

/-- **The nodes are counted**: they are what the free numbers leave of the arena. -/
theorem Numbered.counted (n : g.Numbered) : g.Counted := by
  have hdead : g.free.Perm
      ((List.range g.nodes.size).filter fun id => ! (g.node? id).isSome) :=
    (List.perm_ext_iff_of_nodup n.nodup (List.nodup_range.filter _)).mpr fun id => by
      rw [n.free id, List.mem_filter, List.mem_range]
      cases g.node? id <;> simp
  have htotal : (List.range g.nodes.size).length = g.liveIds.length +
      ((List.range g.nodes.size).filter fun id => ! (g.node? id).isSome).length :=
    List.length_eq_length_filter_add _
  have hsize := n.live
  rw [hdead.length_eq] at hsize
  rw [List.length_range] at htotal
  rw [Counted]
  omega

end Graph

end VirtualFs.Mount
