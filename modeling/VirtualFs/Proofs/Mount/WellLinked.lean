import Mathlib.Data.List.Pairwise
import Mathlib.Logic.Relation
import Mathlib.Tactic.Common
import VirtualFs.Mount.Edit
import VirtualFs.Proofs.Path.SegmentOrder
import VirtualFs.Proofs.Search

/-!
# Well-linked graphs

What the links of a mount graph have in common at every moment, also halfway through a change:
`IsTree` says that parents and children name each other, that no chain of links comes back to where
it began, and that siblings are sorted; so of two siblings no node is below both
(`IsTree.sibling_eq`).  `WellLinked` says in addition that a node's offset is its parent's plus its
segment and a delimiter.  Offsets then grow from a node to its children, which alone leaves no way
back (`WellLinked.isTree`), and every node is below the root (`WellLinked.below_root`).

`Numbered` says that the free list holds the dead numbers and that the nodes are counted.
-/

namespace VirtualFs.Mount.Graph

variable {ρ : Type} {g : Graph ρ}

/-! ### Links -/

/-- `child` is among the children of `id`. -/
def Links (g : Graph ρ) (id child : NodeId) : Prop :=
  ∃ node, g.node? id = some node ∧ child ∈ node.children

/-- `id` is `top`, or a child of a node that is below `top`. -/
def Below (g : Graph ρ) : NodeId → NodeId → Prop :=
  Relation.ReflTransGen g.Links

/-- The links of a graph are those of a tree whose siblings are sorted. -/
structure IsTree (g : Graph ρ) : Prop where
  /-- The root is there, and has no parent. -/
  root : ∃ top, g.node? root = some top ∧ top.parent = none
  /-- Every other node has a parent that lists it. -/
  up : ∀ {id node}, g.node? id = some node → id ≠ Graph.root →
    ∃ parent above, node.parent = some parent ∧ g.node? parent = some above ∧ id ∈ above.children
  /-- Every child is there and names its parent. -/
  down : ∀ {id node child}, g.node? id = some node → child ∈ node.children →
    ∃ below, g.node? child = some below ∧ below.parent = some id
  /-- No way down comes back. -/
  acyclic : ∀ id, ¬ Relation.TransGen g.Links id id
  /-- Siblings stand in the order of their segments. -/
  sorted : ∀ {id node}, g.node? id = some node →
    node.children.Pairwise fun a b => Segment.Before (g.segment a) (g.segment b)

/-- The links of a graph name each other, and what a node says of its place is true. -/
structure WellLinked (g : Graph ρ) : Prop where
  /-- The root is there, and it is the top. -/
  root : ∃ top, g.node? root = some top ∧ top.segment = [] ∧ top.offset = 1 ∧ top.parent = none
  /-- Every other node has a parent that lists it, and begins where its parent ends. -/
  up : ∀ {id node}, g.node? id = some node → id ≠ Graph.root →
    ∃ parent above, node.parent = some parent ∧ g.node? parent = some above ∧
      id ∈ above.children ∧ node.offset = above.offset + Path.byteLength node.segment + 1
  /-- Every child is there and names its parent. -/
  down : ∀ {id node child}, g.node? id = some node → child ∈ node.children →
    ∃ below, g.node? child = some below ∧ below.parent = some id
  /-- Siblings stand in the order of their segments. -/
  sorted : ∀ {id node}, g.node? id = some node →
    node.children.Pairwise fun a b => Segment.Before (g.segment a) (g.segment b)
  /-- A segment has no delimiter in it and is not too long. -/
  segment : ∀ {id node}, g.node? id = some node →
    Path.delimiter ∉ node.segment ∧ Path.byteLength node.segment ≤ Limits.maxFilenameLength

/-- The free list holds the dead numbers, each once, and the nodes are counted. -/
structure Numbered (g : Graph ρ) : Prop where
  nodup : g.free.Nodup
  free : ∀ id, id ∈ g.free ↔ id < g.nodes.size ∧ g.node? id = none
  live : g.live + g.free.length = g.nodes.size
  limit : g.live ≤ g.limit

theorem lt_size_of_node? {id : NodeId} {node : Node ρ} (h : g.node? id = some node) :
    id < g.nodes.size := by
  by_contra hge
  rw [node?, Array.getD_eq_getD_getElem?, Array.getElem?_eq_none (Nat.not_lt.mp hge)] at h
  cases h

theorem segment_of_node? {id : NodeId} {node : Node ρ} (h : g.node? id = some node) :
    g.segment id = node.segment := by
  rw [Graph.segment, h]

/-- Two graphs with the same nodes and the same books are equal. -/
theorem ext_node? {g h : Graph ρ} (hsize : g.nodes.size = h.nodes.size)
    (hnode : ∀ id, g.node? id = h.node? id) (hfree : g.free = h.free)
    (hlimit : g.limit = h.limit) (hlive : g.live = h.live) : g = h := by
  obtain ⟨nodes, free, limit, live⟩ := g
  obtain ⟨nodes', free', limit', live'⟩ := h
  simp only [node?, Array.getD_eq_getD_getElem?] at hsize hnode hfree hlimit hlive
  have hnodes : nodes = nodes' := Array.ext hsize fun i hi hi' => by
    simpa [Array.getElem?_eq_getElem hi, Array.getElem?_eq_getElem hi'] using hnode i
  subst hnodes hfree hlimit hlive
  rfl

/-! ### The graph of the root alone -/

theorem node?_withLimit (limit : Nat) (id : NodeId) :
    (withLimit limit : Graph ρ).node? id =
      if id = root then some ⟨[], 1, none, [], none⟩ else none := by
  cases id with
  | zero => rfl
  | succ id => rfl

theorem wellLinked_withLimit (limit : Nat) : (withLimit limit : Graph ρ).WellLinked where
  root := ⟨_, node?_withLimit limit root, rfl, rfl, rfl⟩
  up h hne := by simp [node?_withLimit, hne] at h
  down h hc := by
    rw [node?_withLimit] at h
    split at h <;> cases h
    cases hc
  sorted h := by
    rw [node?_withLimit] at h
    split at h <;> cases h
    exact .nil
  segment h := by
    rw [node?_withLimit] at h
    split at h <;> cases h
    simp

theorem numbered_withLimit (limit : Nat) : (withLimit limit : Graph ρ).Numbered where
  nodup := List.nodup_nil
  free id := by
    have hfree : (withLimit limit : Graph ρ).free = [] := rfl
    rw [hfree, node?_withLimit]
    simp only [List.not_mem_nil, false_iff, not_and]
    intro hlt
    have hid : id = root := Nat.lt_one_iff.mp hlt
    simp [hid]
  live := rfl
  limit := Nat.le_max_right _ _

namespace IsTree

/-! ### Parents and children -/

theorem root_not_child (w : g.IsTree) {id : NodeId} : ¬ g.Links id Graph.root := by
  rintro ⟨node, hnode, hmem⟩
  obtain ⟨below, hbelow, hparent⟩ := w.down hnode hmem
  obtain ⟨top, htop, hnone⟩ := w.root
  rw [htop] at hbelow
  cases hbelow
  rw [hnone] at hparent
  cases hparent

theorem parent_unique (w : g.IsTree) {a b child : NodeId} (ha : g.Links a child)
    (hb : g.Links b child) : a = b := by
  obtain ⟨na, hna, hma⟩ := ha
  obtain ⟨nb, hnb, hmb⟩ := hb
  obtain ⟨below, hbelow, hpa⟩ := w.down hna hma
  obtain ⟨below', hbelow', hpb⟩ := w.down hnb hmb
  rw [hbelow] at hbelow'
  cases hbelow'
  exact Option.some.inj (hpa.symm.trans hpb)

theorem nodup_children (w : g.IsTree) {id : NodeId} {node : Node ρ}
    (h : g.node? id = some node) : node.children.Nodup :=
  (w.sorted h).imp fun hab e => hab.ne (congrArg g.segment e)

theorem exists_of_links (w : g.IsTree) {id child : NodeId} (hl : g.Links id child) :
    ∃ below, g.node? child = some below := by
  obtain ⟨node, h, hc⟩ := hl
  obtain ⟨below, hb, -⟩ := w.down h hc
  exact ⟨below, hb⟩

/-- A node below a live one is live. -/
theorem exists_of_below (w : g.IsTree) {top id : NodeId} {node : Node ρ} (hb : g.Below top id)
    (h : g.node? top = some node) : ∃ below, g.node? id = some below := by
  rcases Relation.ReflTransGen.cases_tail hb with rfl | ⟨c, -, hl⟩
  · exact ⟨node, h⟩
  · exact w.exists_of_links hl

/-! ### No way back -/

/-- **No way back**: nothing below a child of a node is that node. -/
theorem not_below_of_links (w : g.IsTree) {id child : NodeId} (hl : g.Links id child) :
    ¬ g.Below child id := fun hb =>
  w.acyclic id (Relation.TransGen.head'_iff.mpr ⟨child, hl, hb⟩)

/-- Nothing is above the root. -/
theorem eq_root_of_below (w : g.IsTree) {id : NodeId} (h : g.Below id Graph.root) :
    id = Graph.root := by
  rcases Relation.ReflTransGen.cases_tail h with e | ⟨c, -, hc⟩
  · exact e.symm
  · exact absurd hc w.root_not_child

/-- Two nodes that are below each other are the same. -/
theorem below_antisymm (w : g.IsTree) {a b : NodeId} (hab : g.Below a b)
    (hba : g.Below b a) : a = b := by
  rcases Relation.ReflTransGen.cases_head hab with e | ⟨c, hac, hcb⟩
  · exact e
  · exact absurd (hcb.trans hba) (w.not_below_of_links hac)

/-- The nodes above a node are above each other. -/
theorem below_total (w : g.IsTree) {a b id : NodeId} (ha : g.Below a id) (hb : g.Below b id) :
    g.Below a b ∨ g.Below b a := by
  have hunique : Relator.RightUnique (Function.swap g.Links) :=
    fun _ _ _ h₁ h₂ => w.parent_unique h₁ h₂
  have ha' := Relation.reflTransGen_swap.mpr ha
  have hb' := Relation.reflTransGen_swap.mpr hb
  rcases Relation.ReflTransGen.total_of_right_unique hunique ha' hb' with h | h
  · exact .inr (Relation.reflTransGen_swap.mp h)
  · exact .inl (Relation.reflTransGen_swap.mp h)

/-- **Siblings have nothing below them in common.** -/
theorem sibling_eq (w : g.IsTree) {id a b j : NodeId} (ha : g.Links id a) (hb : g.Links id b)
    (hja : g.Below a j) (hjb : g.Below b j) : a = b := by
  -- a sibling below another would be a child of some node below `id`, and of `id`
  have key : ∀ {a b : NodeId}, g.Links id a → g.Links id b → g.Below a b → a = b := by
    intro a b ha hb hab
    rcases Relation.ReflTransGen.cases_tail hab with rfl | ⟨c, hac, hcb⟩
    · rfl
    · rw [w.parent_unique hcb hb] at hac
      exact absurd hac (w.not_below_of_links ha)
  rcases w.below_total hja hjb with h | h
  · exact key ha hb h
  · exact (key hb ha h).symm

end IsTree

namespace WellLinked

/-! ### Segments and offsets -/

/-- Siblings with the same segment are the same node. -/
theorem child_eq_of_segment (w : g.WellLinked) {id a b : NodeId} {node : Node ρ}
    (h : g.node? id = some node) (ha : a ∈ node.children) (hb : b ∈ node.children)
    (hs : g.segment a = g.segment b) : a = b := by
  have hne : node.children.Pairwise fun a b => g.segment a ≠ g.segment b :=
    (w.sorted h).imp fun hab => hab.ne
  have : Std.Symm fun a b => g.segment a ≠ g.segment b := ⟨fun _ _ h => h.symm⟩
  by_contra hab
  exact hne.forall ha hb hab hs

/-- The children stand the way that halving needs, whatever segment is sought. -/
theorem ascending (w : g.WellLinked) {id : NodeId} {node : Node ρ} (h : g.node? id = some node)
    (segment : Segment) : Search.Ascending (g.orderTo segment) node.children :=
  (w.sorted h).imp fun hab hb =>
    Std.TransCmp.lt_of_lt_of_isLE hab (Ordering.ne_gt_iff_isLE.mp hb)

/-- A child begins further on than its parent. -/
theorem offset_child (w : g.WellLinked) {id child : NodeId} {node below : Node ρ}
    (h : g.node? id = some node) (hc : child ∈ node.children)
    (hb : g.node? child = some below) :
    below.offset = node.offset + Path.byteLength below.segment + 1 := by
  obtain ⟨below', hb', hparent⟩ := w.down h hc
  rw [hb] at hb'
  cases hb'
  have hne : child ≠ Graph.root := by
    rintro rfl
    obtain ⟨top, htop, -, -, hnone⟩ := w.root
    cases hb.symm.trans htop
    cases hnone.symm.trans hparent
  obtain ⟨parent, above, hparent', habove, -, hoff⟩ := w.up hb hne
  cases hparent.symm.trans hparent'
  cases h.symm.trans habove
  exact hoff

theorem exists_offset_lt (w : g.WellLinked) {id child : NodeId} {node : Node ρ}
    (hl : g.Links id child) (h : g.node? id = some node) :
    ∃ below, g.node? child = some below ∧ node.offset < below.offset := by
  obtain ⟨node', h', hc⟩ := hl
  rw [h] at h'
  cases h'
  obtain ⟨below, hb, -⟩ := w.down h hc
  have := w.offset_child h hc hb
  exact ⟨below, hb, by omega⟩

/-- A node below a live one is live, and no less far on. -/
theorem offset_le_of_below (w : g.WellLinked) {top id : NodeId} {node : Node ρ}
    (hb : g.Below top id) (h : g.node? top = some node) :
    ∃ below, g.node? id = some below ∧ node.offset ≤ below.offset := by
  induction hb with
  | refl => exact ⟨node, h, Nat.le_refl _⟩
  | tail _ hl ih =>
      obtain ⟨mid, hmid, hle⟩ := ih
      obtain ⟨below, hbelow, hlt⟩ := w.exists_offset_lt hl hmid
      exact ⟨below, hbelow, Nat.le_trans hle (Nat.le_of_lt hlt)⟩

/-- **Well-linked graphs are trees**: a way down leads further on and so never back. -/
theorem isTree (w : g.WellLinked) : g.IsTree where
  root := by
    obtain ⟨top, htop, -, -, hnone⟩ := w.root
    exact ⟨top, htop, hnone⟩
  up h hne := by
    obtain ⟨parent, above, hparent, habove, hmem, -⟩ := w.up h hne
    exact ⟨parent, above, hparent, habove, hmem⟩
  down := w.down
  acyclic id hcycle := by
    obtain ⟨child, hl, hb⟩ := Relation.TransGen.head'_iff.mp hcycle
    obtain ⟨node, h, hc⟩ := hl
    obtain ⟨below, hbelow, hlt⟩ := w.exists_offset_lt ⟨node, h, hc⟩ h
    obtain ⟨node', h', hle⟩ := w.offset_le_of_below hb hbelow
    cases h.symm.trans h'
    exact Nat.not_lt.mpr hle hlt
  sorted := w.sorted

/-- **No orphans**: every node is below the root. -/
theorem below_root (w : g.WellLinked) {id : NodeId} {node : Node ρ}
    (h : g.node? id = some node) : g.Below Graph.root id := by
  -- by induction on the offset, which is smaller at the parent
  induction hn : node.offset using Nat.strongRecOn generalizing id node with
  | _ n ih =>
      by_cases hroot : id = Graph.root
      · rw [hroot]
        exact .refl
      · obtain ⟨parent, above, -, habove, hmem, hoff⟩ := w.up h hroot
        exact (ih above.offset (by omega) habove rfl).tail ⟨above, habove, hmem⟩

end WellLinked

end VirtualFs.Mount.Graph
