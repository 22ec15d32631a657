import VirtualFs.Mount.Listing
import VirtualFs.Proofs.Mount.Tree

/-!
# Taking nodes out

`g.without gone` is the graph after the nodes in `gone` were taken out one by one, in this order:
their slots are dead, no node lists them any more, and their numbers are the next ones to be given
out, the last first.

A tree stays one when with every node its children go (`Severable`), and so does a well-linked
graph.

* `eraseNode_eq`: taking a node out is what `eraseNode` does.
-/

namespace VirtualFs.Mount

variable {ρ : Type}

/-- The node without the children in `gone`. -/
def Node.dropChildren (gone : List NodeId) (node : Node ρ) : Node ρ :=
  { node with children := node.children.filter (· ∉ gone) }

namespace Graph

variable {g : Graph ρ}

/-- The graph without the nodes in `gone`. -/
def without (g : Graph ρ) (gone : List NodeId) : Graph ρ :=
  { g with
    nodes := g.nodes.mapIdx fun id slot => if id ∈ gone then none else slot.map (.dropChildren gone)
    free := gone.reverse ++ g.free
    live := g.live - gone.length }

theorem node?_without (g : Graph ρ) (gone : List NodeId) (id : NodeId) :
    (g.without gone).node? id =
      if id ∈ gone then none else (g.node? id).map (.dropChildren gone) := by
  simp only [node?, without, Array.getD_eq_getD_getElem?, Array.getElem?_mapIdx]
  cases g.nodes[id]? with
  | none => simp
  | some slot => split <;> simp [*]

theorem node?_without_of_not_mem {gone : List NodeId} {id : NodeId} (h : id ∉ gone) :
    (g.without gone).node? id = (g.node? id).map (.dropChildren gone) := by
  rw [node?_without, if_neg h]

theorem node?_of_without {gone : List NodeId} {id : NodeId} {node' : Node ρ}
    (h : (g.without gone).node? id = some node') :
    id ∉ gone ∧ ∃ node, g.node? id = some node ∧ node' = node.dropChildren gone := by
  rw [node?_without] at h
  split at h
  · cases h
  · rename_i hid
    obtain ⟨node, hnode, rfl⟩ := Option.map_eq_some_iff.mp h
    exact ⟨hid, node, hnode, rfl⟩

theorem segment_without {gone : List NodeId} {id : NodeId} (h : id ∉ gone) :
    (g.without gone).segment id = g.segment id := by
  rw [segment, segment, node?_without_of_not_mem h]
  cases g.node? id <;> rfl

theorem ownsDriver_of_node? {id : NodeId} {node : Node ρ} (h : g.node? id = some node) :
    g.ownsDriver id = node.driver.isSome := by
  rw [ownsDriver, h]
  rfl

theorem ownsDriver_without {gone : List NodeId} {id : NodeId} (h : id ∉ gone) :
    (g.without gone).ownsDriver id = g.ownsDriver id := by
  rw [ownsDriver, ownsDriver, node?_without_of_not_mem h]
  cases g.node? id <;> rfl

@[simp] theorem size_without (g : Graph ρ) (gone : List NodeId) :
    (g.without gone).nodes.size = g.nodes.size := by
  simp [without]

theorem without_nil (g : Graph ρ) : g.without [] = g := by
  refine ext_node? (by simp) (fun id => ?_) rfl rfl rfl
  rw [node?_without_of_not_mem (by simp)]
  cases g.node? id with
  | none => rfl
  | some node => simp [Node.dropChildren]

theorem without_without (g : Graph ρ) (a b : List NodeId) :
    (g.without a).without b = g.without (a ++ b) := by
  refine ext_node? (by simp) (fun id => ?_) ?_ rfl ?_
  · rw [node?_without, node?_without, node?_without]
    by_cases ha : id ∈ a <;> by_cases hb : id ∈ b <;> simp [ha, hb]
    cases g.node? id with
    | none => rfl
    | some node => simp [Node.dropChildren, List.filter_filter, Bool.and_comm]
  · simp [without]
  · simp [without, Nat.sub_sub]

/-! ### What stays a tree -/

/-- With every node its children go, and the root stays. -/
structure Severable (g : Graph ρ) (gone : List NodeId) : Prop where
  root : Graph.root ∉ gone
  down : ∀ {id child}, id ∈ gone → g.Links id child → child ∈ gone

theorem links_of_without {gone : List NodeId} {a b : NodeId} (h : (g.without gone).Links a b) :
    g.Links a b := by
  obtain ⟨node', h', hmem⟩ := h
  obtain ⟨-, node, hnode, rfl⟩ := node?_of_without h'
  exact ⟨node, hnode, (List.mem_filter.mp hmem).1⟩

theorem IsTree.without (w : g.IsTree) {gone : List NodeId} (hs : g.Severable gone) :
    (g.without gone).IsTree where
  root := by
    obtain ⟨top, htop, hnone⟩ := w.root
    exact ⟨top.dropChildren gone, by rw [node?_without_of_not_mem hs.root, htop]; rfl, hnone⟩
  up h hne := by
    obtain ⟨hid, node, hnode, rfl⟩ := node?_of_without h
    obtain ⟨parent, above, hparent, habove, hmem⟩ := w.up hnode hne
    have hp : parent ∉ gone := fun hp => hid (hs.down hp ⟨above, habove, hmem⟩)
    refine ⟨parent, above.dropChildren gone, hparent, ?_, ?_⟩
    · rw [node?_without_of_not_mem hp, habove]
      rfl
    · exact List.mem_filter.mpr ⟨hmem, by simpa using hid⟩
  down h hc := by
    obtain ⟨hid, node, hnode, rfl⟩ := node?_of_without h
    obtain ⟨hc, hgone⟩ := List.mem_filter.mp hc
    obtain ⟨below, hbelow, hparent⟩ := w.down hnode hc
    refine ⟨below.dropChildren gone, ?_, hparent⟩
    rw [node?_without_of_not_mem (by simpa using hgone), hbelow]
    rfl
  acyclic id hcycle :=
    w.acyclic id (Relation.TransGen.mono (fun _ _ => links_of_without) _ _ hcycle)
  sorted h := by
    obtain ⟨hid, node, hnode, rfl⟩ := node?_of_without h
    refine (List.Pairwise.filter _ (w.sorted hnode)).imp_of_mem fun {a b} ha hb hab => ?_
    have ha : a ∉ gone := by simpa using (List.mem_filter.mp ha).2
    have hb : b ∉ gone := by simpa using (List.mem_filter.mp hb).2
    rwa [segment_without ha, segment_without hb]

theorem WellLinked.without (w : g.WellLinked) {gone : List NodeId} (hs : g.Severable gone) :
    (g.without gone).WellLinked where
  root := by
    obtain ⟨top, htop, h₁, h₂, h₃⟩ := w.root
    exact ⟨top.dropChildren gone, by rw [node?_without_of_not_mem hs.root, htop]; rfl, h₁, h₂, h₃⟩
  up h hne := by
    obtain ⟨parent, above', hparent, habove', hmem⟩ := (w.isTree.without hs).up h hne
    obtain ⟨-, node, hnode, rfl⟩ := node?_of_without h
    obtain ⟨-, above, habove, rfl⟩ := node?_of_without habove'
    obtain ⟨below, hbelow, -⟩ := w.down habove (List.mem_filter.mp hmem).1
    cases hnode.symm.trans hbelow
    have hoff := w.offset_child habove (List.mem_filter.mp hmem).1 hbelow
    exact ⟨parent, _, hparent, habove', hmem, hoff⟩
  down := (w.isTree.without hs).down
  sorted := (w.isTree.without hs).sorted
  segment h := by
    obtain ⟨hid, node, hnode, rfl⟩ := node?_of_without h
    have hsegment := w.segment hnode
    exact hsegment

/-- Live nodes, each named once, are no more than the nodes that are counted. -/
theorem Counted.length_le_live (n : g.Counted) {ids : List NodeId} (hnodup : ids.Nodup)
    (hlive : ∀ id ∈ ids, ∃ node, g.node? id = some node) : ids.length ≤ g.live := by
  have hsub : ids ⊆ g.liveIds := fun id hid =>
    mem_liveIds.mpr (Option.isSome_iff_exists.mpr (hlive id hid))
  rw [← n]
  exact (List.subperm_of_subset hnodup hsub).length_le

theorem Counted.without (n : g.Counted) {gone : List NodeId} (hnodup : gone.Nodup)
    (hlive : ∀ id ∈ gone, ∃ node, g.node? id = some node) : (g.without gone).Counted := by
  have hleft : ∀ {id}, id ∈ (g.without gone).liveIds ↔ id ∈ g.liveIds ∧ id ∉ gone := by
    intro id
    rw [mem_liveIds, mem_liveIds, node?_without]
    by_cases hid : id ∈ gone <;> simp [hid]
  have hperm : g.liveIds.Perm (gone ++ (g.without gone).liveIds) :=
    (List.perm_ext_iff_of_nodup g.nodup_liveIds (List.nodup_append'.mpr
      ⟨hnodup, nodup_liveIds _, fun id h₁ h₂ => (hleft.mp h₂).2 h₁⟩)).mpr fun id => by
        rw [List.mem_append, hleft]
        by_cases hid : id ∈ gone
        · have hmem := mem_liveIds.mpr (Option.isSome_iff_exists.mpr (hlive id hid))
          simp [hid, hmem]
        · simp [hid]
  have hlength := hperm.length_eq
  rw [List.length_append, n] at hlength
  exact Nat.eq_sub_of_add_eq' hlength.symm

theorem Numbered.without (n : g.Numbered) {gone : List NodeId} (hnodup : gone.Nodup)
    (hlive : ∀ id ∈ gone, ∃ node, g.node? id = some node) : (g.without gone).Numbered where
  nodup := by
    refine List.nodup_append'.mpr ⟨List.nodup_reverse.mpr hnodup, n.nodup, fun id hid hfree => ?_⟩
    obtain ⟨node, hnode⟩ := hlive id (List.mem_reverse.mp hid)
    rw [((n.free id).mp hfree).2] at hnode
    cases hnode
  free id := by
    rw [node?_without, size_without, Graph.without, List.mem_append, List.mem_reverse, n.free id]
    by_cases hid : id ∈ gone
    · obtain ⟨node, hnode⟩ := hlive id hid
      simp [hid, lt_size_of_node? hnode]
    · simp [hid]
  live := by
    have hle := n.counted.length_le_live hnodup hlive
    have hlive := n.live
    simp only [Graph.without, List.length_append, List.length_reverse, Array.size_mapIdx]
    omega
  limit := Nat.le_trans (Nat.sub_le _ _) n.limit

/-! ### Taking one node out -/

theorem node_eq_ok {id : NodeId} {node : Node ρ} (h : g.node? id = some node) :
    g.node id = .ok node := by
  rw [Graph.node, h]

theorem modify_eq_ok {id : NodeId} {node : Node ρ} (h : g.node? id = some node)
    (change : Node ρ → Node ρ) : g.modify id change = .ok (g.write id (some (change node))) := by
  rw [modify, node_eq_ok h]
  rfl

theorem node?_write_of_node? {id : NodeId} {node : Node ρ} (h : g.node? id = some node)
    (other : NodeId) (slot : Option (Node ρ)) :
    (g.write id slot).node? other = if other = id then slot else g.node? other := by
  rw [node?_write]
  simp [lt_size_of_node? h]

@[simp] theorem size_write (g : Graph ρ) (id : NodeId) (slot : Option (Node ρ)) :
    (g.write id slot).nodes.size = g.nodes.size := by
  simp [write]

/-- **Taking a node out** of a tree, where it owns no driver. -/
theorem eraseNode_eq (w : g.IsTree) (n : g.Counted) {id : NodeId} {node : Node ρ}
    (h : g.node? id = some node) (hne : id ≠ root) (hd : node.driver = none) :
    g.eraseNode id = .ok ⟨g.without [id], [.removed node.segment id], ()⟩ := by
  obtain ⟨parent, above, hparent, habove, hmem⟩ := w.up h hne
  have hlive : g.live ≠ 0 := by
    have hone : [id].length ≤ g.live := n.length_le_live (by simp) (by simp [h])
    exact Nat.ne_of_gt hone
  have hpid : id ≠ parent := by
    rintro rfl
    exact w.not_below_of_links ⟨above, habove, hmem⟩ .refl
  have hwrite := node?_write_of_node? habove
  unfold eraseNode
  simp only [node_eq_ok h, hparent, modify_eq_ok habove, hd, bind, Except.bind, pure, Except.pure,
    Option.isSome_none, Bool.false_eq_true, if_false]
  rw [if_neg (show ¬ (g.write parent _).live = 0 from hlive)]
  refine congrArg Except.ok ?_
  refine congrArg (fun graph => Edit.mk graph _ ()) (ext_node? (by simp) (fun j => ?_) rfl rfl rfl)
  show ((g.write parent _).write id none).node? j = _
  rw [node?_write_of_node? (by rw [hwrite, if_neg hpid]; exact h), hwrite, node?_without]
  -- `id` is gone, its parent has lost it, and no other node had it as a child
  by_cases hj : j = id
  · simp [hj]
  · have hj' : j ∉ [id] := by simpa using hj
    rw [if_neg hj, if_neg hj']
    by_cases hjp : j = parent
    · subst hjp
      have herase : above.children.erase id = above.children.filter (· ∉ [id]) := by
        rw [(w.nodup_children habove).erase_eq_filter]
        exact List.filter_congr fun c _ => by by_cases hc : c = id <;> simp [hc]
      rw [if_pos rfl, habove, herase]
      rfl
    · rw [if_neg hjp]
      cases hnode : g.node? j with
      | none => rfl
      | some other =>
          have hfilter : other.children.filter (· ∉ [id]) = other.children :=
            List.filter_eq_self.mpr fun c hc => by
              have hcid : c ≠ id := by
                rintro rfl
                exact hjp (w.parent_unique ⟨other, hnode, hc⟩ ⟨above, habove, hmem⟩)
              simpa using hcid
          rw [Option.map_some, Node.dropChildren, hfilter]

end Graph

end VirtualFs.Mount
