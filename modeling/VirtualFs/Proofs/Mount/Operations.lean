import VirtualFs.Proofs.Mount.Regular

/-!
# Any operations on a mount graph

A mount graph that begins with the root alone and is worked on by attaching, detaching and cleaning
in any order, with any paths, numbers and records, never stops with a fault, and what it is made of
hangs together at every moment (`WellFormed`).

* `Regular.wellFormed`: a regular graph is well-formed.
* `Regular.operation`: one operation leads from a regular graph to a regular graph.
* `operate_wellFormed`: so every run of operations leaves a well-formed graph.
-/

namespace VirtualFs.Mount.Graph

variable {ρ : Type} {g : Graph ρ}

/-! ### What hangs together -/

/-- A mount graph with room for `limit` nodes, taken apart. -/
structure WellFormed (limit : Nat) (g : Graph ρ) : Prop where
  /-- Number 0 is the root. -/
  root : ∃ top, g.node? 0 = some top ∧ top.segment = [] ∧ top.offset = 1 ∧ top.parent = none
  /-- Every other node has a parent, which lists it once. -/
  parent : ∀ {id node}, g.node? id = some node → id ≠ 0 → ∃ parent above,
    node.parent = some parent ∧ g.node? parent = some above ∧ above.children.count id = 1
  /-- Every child that is listed is there, and names its parent. -/
  child : ∀ {id node child}, g.node? id = some node → child ∈ node.children →
    ∃ below, g.node? child = some below ∧ below.parent = some id
  /-- There are no orphans. -/
  reached : ∀ {id node}, g.node? id = some node → Relation.ReflTransGen g.Links 0 id
  /-- There are no cycles. -/
  acyclic : ∀ id, ¬ Relation.TransGen g.Links id id
  /-- The segments of siblings strictly increase. -/
  sorted : ∀ {id node}, g.node? id = some node →
    node.children.Pairwise fun a b => Segment.order (g.segment a) (g.segment b) = .lt
  /-- A child's path is longer by its segment and one delimiter. -/
  offset : ∀ {id node child below}, g.node? id = some node → child ∈ node.children →
    g.node? child = some below → below.offset = node.offset + Path.byteLength below.segment + 1
  segment : ∀ {id node}, g.node? id = some node →
    '/' ∉ node.segment ∧ Path.byteLength node.segment ≤ 256
  /-- The dead slots are free, each once, and nothing else is. -/
  free : ∀ id, g.free.count id = if id < g.nodes.size ∧ g.node? id = none then 1 else 0
  counted : g.live = g.nodes.toList.countP Option.isSome
  bounded : g.live ≤ max limit 1
  /-- Every node but the root owns a driver, or one below it does. -/
  driven : ∀ {id node}, g.node? id = some node → id ≠ 0 → ∃ j owner record,
    Relation.ReflTransGen g.Links id j ∧ g.node? j = some owner ∧ owner.driver = some record

/-- The nodes that are not free are the live ones. -/
theorem Numbered.live_eq_countP (n : g.Numbered) :
    g.live = g.nodes.toList.countP Option.isSome := by
  have hslots : (List.range g.nodes.size).map g.node? = g.nodes.toList := by
    refine List.ext_getElem (by simp) ?_
    intro i hi hi'
    have hlt : i < g.nodes.size := by simpa using hi'
    simp [node?, Array.getD_eq_getD_getElem?, hlt]
  rw [← n.counted, ← hslots, List.countP_map, List.countP_eq_length_filter]
  rfl

/-- **A regular graph is well-formed.** -/
theorem Regular.wellFormed (r : g.Regular) {limit : Nat} (hlimit : g.limit = max limit 1) :
    g.WellFormed limit where
  root := r.linked.root
  parent hn hne := by
    obtain ⟨parent, above, hparent, habove, hmem, -⟩ := r.linked.up hn hne
    exact ⟨parent, above, hparent, habove,
      List.count_eq_one_of_mem (r.linked.isTree.nodup_children habove) hmem⟩
  child := r.linked.down
  reached := r.linked.below_root
  acyclic := r.linked.isTree.acyclic
  sorted := r.linked.sorted
  offset := r.linked.offset_child
  segment := r.linked.segment
  free id := by
    split
    · exact List.count_eq_one_of_mem r.numbered.nodup ((r.numbered.free id).mpr ‹_›)
    · rename_i hlive
      exact List.count_eq_zero.mpr fun hid => hlive ((r.numbered.free id).mp hid)
  counted := r.numbered.live_eq_countP
  bounded := hlimit ▸ r.numbered.limit
  driven hn hne := by
    obtain ⟨j, hb, hown⟩ := r.fruitful hn hne
    rw [ownsDriver, Option.any_eq_true] at hown
    obtain ⟨owner, hj, hd⟩ := hown
    obtain ⟨record, hd⟩ := Option.isSome_iff_exists.mp hd
    exact ⟨j, owner, record, hb, hj, hd⟩

/-! ### Runs of operations -/

/-- An operation on a mount graph. -/
inductive Operation (ρ : Type) where
  | attach (path : Path) (record : ρ)
  | detach (id : NodeId) (record : ρ)
  | clean (id : NodeId)

/-- The graph that an operation leaves, whether it succeeds or fails. -/
def operation [DecidableEq ρ] (g : Graph ρ) : Operation ρ → Checked (Graph ρ)
  | .attach path record => do return (← g.attach path record).graph
  | .detach id record => do return (← g.detach id record).graph
  | .clean id => do return (← g.prune id).graph

/-- The graph that operations leave, one after the other, on a graph of the root alone. -/
def operate [DecidableEq ρ] (limit : Nat) (operations : List (Operation ρ)) :
    Checked (Graph ρ) :=
  operations.foldlM operation (withLimit limit)

/-- **One operation** on a regular graph leaves one. -/
theorem Regular.operation [DecidableEq ρ] (r : g.Regular) (o : Operation ρ) :
    ∃ h, g.operation o = .ok h ∧ h.Regular ∧ h.limit = g.limit := by
  cases o with
  | attach path record =>
      rcases r.attach path record with
        ⟨h, changes, e, hattach, k, rh, -⟩ | ⟨rest, h, changes, id, -, hattach, rh, ha⟩
      · exact ⟨h, by rw [Graph.operation, hattach]; rfl, rh, k.limit⟩
      · exact ⟨h, by rw [Graph.operation, hattach]; rfl, rh, ha.limit_eq⟩
  | detach id record =>
      by_cases howner : ∃ node, g.node? id = some node ∧ node.driver = some record
      · obtain ⟨node, hn, hd⟩ := howner
        obtain ⟨gone, changes, hdetach, -, rh, -⟩ := r.detach hn hd
        exact ⟨_, by rw [Graph.operation, hdetach]; rfl, rh, rfl⟩
      · have hdetach := detach_notFound fun node hn hd => howner ⟨node, hn, hd⟩
        exact ⟨g, by rw [Graph.operation, hdetach]; rfl, r, rfl⟩
  | clean id =>
      exact ⟨g, by rw [Graph.operation, r.prune id]; rfl, r, rfl⟩

theorem Regular.foldlM_operation [DecidableEq ρ] (r : g.Regular)
    (operations : List (Operation ρ)) : ∃ h, operations.foldlM Graph.operation g = .ok h ∧
      h.Regular ∧ h.limit = g.limit := by
  induction operations generalizing g with
  | nil => exact ⟨g, rfl, r, rfl⟩
  | cons o operations ih =>
      obtain ⟨h, hop, rh, hlimit⟩ := r.operation o
      obtain ⟨i, hrest, ri, hlimit'⟩ := ih rh
      refine ⟨i, ?_, ri, hlimit'.trans hlimit⟩
      rw [List.foldlM_cons, hop]
      exact hrest

/-- **Every run of operations** leaves a well-formed graph, and stops with no fault. -/
theorem operate_wellFormed [DecidableEq ρ] (limit : Nat) (operations : List (Operation ρ)) :
    ∃ g, operate limit operations = .ok g ∧ g.WellFormed limit := by
  have hstart : (withLimit limit : Graph ρ).Regular := regular_withLimit limit
  obtain ⟨g, hrun, r, hlimit⟩ := hstart.foldlM_operation operations
  exact ⟨g, hrun, r.wellFormed hlimit⟩

end VirtualFs.Mount.Graph
