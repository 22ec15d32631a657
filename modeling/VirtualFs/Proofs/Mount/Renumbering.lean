import VirtualFs.Proofs.Mount.Listing
import VirtualFs.Proofs.Mount.Route

/-!
# Other numbers for the same nodes

Two mount graphs may be the same tree with its nodes under other numbers: `Renumbering f g h` says
that `f` takes the nodes of `g` one to one to those of `h`, each with its segment, offset, driver
and children in their order (`Node.rename`).

No look-up and no listing compares numbers, so what they answer is carried along by `f`:

* `Renumbering.live`: the number of nodes.
* `Renumbering.find`: what a look-up finds.
* `Renumbering.pathOf`, `Renumbering.childAfter`: the path of a node and its next child.
* `Renumbering.mountPaths`: the mounts, which are the same.
-/

namespace VirtualFs.Mount

/-! ### Renaming a node and a tree -/

/-- The node with the numbers it names replaced. -/
def Node.rename {ρ : Type} (f : NodeId → NodeId) (node : Node ρ) : Node ρ :=
  { node with children := node.children.map f, parent := node.parent.map f }

/-- The tree with its numbers replaced. -/
def Tree.rename (f : NodeId → NodeId) : Tree → Tree
  | .node id below => .node (f id) (below.map (Tree.rename f))

theorem Tree.id_rename (f : NodeId → NodeId) (t : Tree) : (t.rename f).id = f t.id := by
  cases t
  rw [Tree.rename, Tree.id, Tree.id]

theorem Tree.ids_rename (f : NodeId → NodeId) (t : Tree) : (t.rename f).ids = t.ids.map f := by
  induction t with
  | node id below ih =>
      rw [Tree.rename, Tree.ids, Tree.ids, List.map_cons, List.map_flatMap, List.flatMap_map]
      exact congrArg _ (List.flatMap_congr ih)

namespace Graph

variable {ρ : Type} {g h : Graph ρ} {f : NodeId → NodeId}

/-- The nodes of `h` are those of `g`, renumbered by `f`. -/
structure Renumbering (f : NodeId → NodeId) (g h : Graph ρ) : Prop where
  root : f root = root
  node : ∀ {id node}, g.node? id = some node → h.node? (f id) = some (node.rename f)
  /-- Every node of `h` has a number in `g`. -/
  onto : ∀ {j node}, h.node? j = some node → ∃ id, (g.node? id).isSome = true ∧ f id = j
  /-- And only one. -/
  injective : ∀ {a b}, (g.node? a).isSome = true → (g.node? b).isSome = true → f a = f b → a = b

namespace Renumbering

variable {id j : NodeId} {node : Node ρ}

theorem segment (r : Renumbering f g h) (hn : g.node? id = some node) :
    h.segment (f id) = g.segment id := by
  rw [segment_of_node? (r.node hn), segment_of_node? hn]
  rfl

theorem ownsDriver (r : Renumbering f g h) (hn : g.node? id = some node) :
    h.ownsDriver (f id) = g.ownsDriver id := by
  rw [Graph.ownsDriver, Graph.ownsDriver, r.node hn, hn]
  rfl

theorem links (r : Renumbering f g h) {child : NodeId} (hl : g.Links id child) :
    h.Links (f id) (f child) := by
  obtain ⟨node, hn, hc⟩ := hl
  exact ⟨_, r.node hn, List.mem_map_of_mem hc⟩

/-- A route leads to the node with the other number. -/
theorem route (r : Renumbering f g h) (w : g.WellLinked) {segments : List Segment}
    (hr : g.Route id segments j) : h.Route (f id) segments (f j) := by
  induction hr with
  | here hn => exact .here (r.node hn)
  | down hl hs _ ih =>
      obtain ⟨below, hb⟩ := w.isTree.exists_of_links hl
      exact .down (r.links hl) ((r.segment hb).trans hs) ih

/-- A tree of nodes is one under the other numbers. -/
theorem spans (r : Renumbering f g h) {t : Tree} (hs : g.Spans t) : h.Spans (t.rename f) := by
  induction t with
  | node id below ih =>
      cases hs with
      | node hn hc hb =>
          rw [Tree.rename]
          refine .node (r.node hn) ?_ fun t ht => ?_
          · rw [Node.rename, hc, List.map_map, List.map_map]
            exact List.map_congr_left fun t _ => (t.id_rename f).symm
          · obtain ⟨old, hold, rfl⟩ := List.mem_map.mp ht
            exact ih old hold (hb old hold)

/-- There are as many nodes. -/
theorem live (r : Renumbering f g h) (ng : g.Numbered) (nh : h.Numbered) : h.live = g.live := by
  have hlength : (g.liveIds.map f).length = g.liveIds.length := List.length_map f
  rw [← nh.counted, ← ng.counted, ← hlength]
  have hnodup : (g.liveIds.map f).Nodup := g.nodup_liveIds.map_on fun a ha b hb =>
    r.injective (mem_liveIds.mp ha) (mem_liveIds.mp hb)
  refine ((List.perm_ext_iff_of_nodup h.nodup_liveIds hnodup).mpr fun j => ?_).length_eq
  rw [mem_liveIds, List.mem_map, Option.isSome_iff_exists]
  constructor
  · rintro ⟨node, hj⟩
    obtain ⟨id, hlive, rfl⟩ := r.onto hj
    exact ⟨id, mem_liveIds.mpr hlive, rfl⟩
  · rintro ⟨id, hid, rfl⟩
    obtain ⟨node, hn⟩ := Option.isSome_iff_exists.mp (mem_liveIds.mp hid)
    exact ⟨_, r.node hn⟩

/-! ### Looking up -/

/-- The segments of siblings compare alike. -/
theorem orderTo (r : Renumbering f g h) (w : g.WellLinked) (hn : g.node? id = some node)
    (segment : Segment) {child : NodeId} (hc : child ∈ node.children) :
    h.orderTo segment (f child) = g.orderTo segment child := by
  obtain ⟨below, hb⟩ := w.isTree.exists_of_links ⟨node, hn, hc⟩
  rw [Graph.orderTo, Graph.orderTo, r.segment hb]

theorem child? (r : Renumbering f g h) (w : g.WellLinked) (hn : g.node? id = some node)
    (segment : Segment) : h.child? (node.rename f) segment = (g.child? node segment).map f :=
  Search.find?_map fun _ hc => r.orderTo w hn segment hc

theorem candidate (f : NodeId → NodeId) (mode : Mode) (id : NodeId) (node : Node ρ)
    (best : Option NodeId) : Graph.candidate mode (f id) (node.rename f) (best.map f) =
      (Graph.candidate mode id node best).map f := by
  cases mode with
  | driver =>
      rw [Graph.candidate, Graph.candidate, apply_ite (Option.map f)]
      rfl
  | exact => rfl
  | deepest => rfl

/-- A walk ends where the path does. -/
theorem walk_end (mode : Mode) (hn : g.node? id = some node) (best : Option NodeId) {rest : Path}
    (htake : Path.takeToken? rest = none) : g.walk mode id best rest =
      if mode = .exact then some id else Graph.candidate mode id node best := by
  rw [Graph.walk, hn]
  dsimp only
  split
  · rfl
  · simp_all

/-- Before that it goes on to the child with the next token, if there is one. -/
theorem walk_on (mode : Mode) (hn : g.node? id = some node) (best : Option NodeId) {rest : Path}
    {token : Segment} {remainder : Path} (htake : Path.takeToken? rest = some (token, remainder)) :
    g.walk mode id best rest = match g.child? node token with
      | some child => g.walk mode child (Graph.candidate mode id node best) remainder
      | none => if mode = .exact then none else Graph.candidate mode id node best := by
  rw [Graph.walk, hn]
  dsimp only
  split
  · simp_all
  · rename_i htake'
    rw [htake] at htake'
    cases htake'
    rfl

/-- **The walks go side by side.** -/
theorem walk (r : Renumbering f g h) (w : g.WellLinked) (mode : Mode)
    (hn : g.node? id = some node) (best : Option NodeId) (rest : Path) :
    h.walk mode (f id) (best.map f) rest = (g.walk mode id best rest).map f := by
  fun_induction Graph.walk g mode id best rest generalizing node with
  | case1 id best rest hnone =>
      rw [hnone] at hn
      cases hn
  | case2 id best rest node' hn' htake hmode =>
      rw [walk_end mode (r.node hn') _ htake, if_pos hmode]
      rfl
  | case3 id best rest node' hn' htake hmode =>
      rw [walk_end mode (r.node hn') _ htake, if_neg hmode, candidate]
  | case4 id best rest node' hn' token remainder htake child hchild ih =>
      obtain ⟨hl, -⟩ := (w.child?_eq_some hn').mp hchild
      obtain ⟨below, hb⟩ := w.isTree.exists_of_links hl
      rw [walk_on mode (r.node hn') _ htake, r.child? w hn', hchild, candidate]
      exact ih hb
  | case5 id best rest node' hn' token remainder htake hchild hmode =>
      rw [walk_on mode (r.node hn') _ htake, r.child? w hn', hchild]
      exact if_pos hmode
  | case6 id best rest node' hn' token remainder htake hchild hmode =>
      rw [walk_on mode (r.node hn') _ htake, r.child? w hn', hchild, candidate]
      exact if_neg hmode

/-- **A look-up finds the same node** under its other number. -/
theorem find (r : Renumbering f g h) (w : g.WellLinked) (path : Path) (mode : Mode) :
    h.find path mode = (g.find path mode).map f := by
  obtain ⟨top, htop, -⟩ := w.root
  rw [Graph.find, Graph.find]
  cases Path.belowRoot? path with
  | none => rfl
  | some rest =>
      have hwalk := r.walk w mode htop none rest
      rw [r.root] at hwalk
      exact hwalk

/-! ### Listing -/

/-- The next child is the same. -/
theorem childAfter (r : Renumbering f g h) (w : g.WellLinked) (hn : g.node? id = some node)
    (after : Option Segment) :
    h.childAfter (f id) after = (g.childAfter id after).map (Node.rename f) := by
  have hchild : ∀ i : Nat, ((node.children.map f)[i]?).bind h.node? =
      ((node.children[i]?).bind g.node?).map (Node.rename f) := by
    intro i
    rw [List.getElem?_map]
    cases hi : node.children[i]? with
    | none => rfl
    | some c =>
        obtain ⟨below, hb⟩ := w.isTree.exists_of_links ⟨node, hn, List.mem_of_getElem? hi⟩
        simp only [Option.map_some, Option.bind_some, hb, r.node hb]
  simp only [Graph.childAfter, r.node hn, hn]
  cases after with
  | none => exact hchild 0
  | some segment =>
      have hpoint : Search.partitionPoint (fun c => h.orderTo segment c != Ordering.gt)
          (node.children.map f) =
          Search.partitionPoint (fun c => g.orderTo segment c != Ordering.gt) node.children :=
        Search.partitionPoint_map fun c hc => by rw [r.orderTo w hn segment hc]
      show ((node.children.map f)[Search.partitionPoint _ (node.children.map f)]?).bind h.node? = _
      rw [hpoint]
      exact hchild _

/-- The path of a node is the same. -/
theorem pathOf (r : Renumbering f g h) (wg : g.WellLinked) (wh : h.WellLinked)
    (hn : g.node? id = some node) : h.pathOf (f id) = g.pathOf id := by
  obtain ⟨top, htop, -⟩ := wg.root
  obtain ⟨segments, route⟩ := wg.exists_route htop (wg.below_root hn)
  have hroute := r.route wg route
  rw [r.root] at hroute
  rw [pathOf_eq wg route, pathOf_eq wh hroute]

/-- The nodes are met in the same order. -/
theorem preorder (r : Renumbering f g h) (wg : g.WellLinked) (wh : h.WellLinked) :
    ∃ ids, g.preorder = .ok ids ∧ h.preorder = .ok (ids.map f) ∧
      ∀ id ∈ ids, (g.node? id).isSome = true := by
  obtain ⟨t, ht, hs, hlist⟩ := preorder_eq wg
  refine ⟨t.ids, hlist, ?_, fun id hid => ?_⟩
  · rw [← t.ids_rename f]
    exact preorder_of_spans wh (r.spans hs) (by rw [t.id_rename f, ht, r.root])
  · obtain ⟨node, hn⟩ := hs.exists_of_mem wg.isTree hid
    rw [hn]
    rfl

/-- **The mounts are the same.** -/
theorem mountPaths (r : Renumbering f g h) (wg : g.WellLinked) (wh : h.WellLinked) :
    h.mountPaths = g.mountPaths := by
  obtain ⟨ids, hg, hh, hlive⟩ := r.preorder wg wh
  have howns : (ids.map f).filter h.ownsDriver = (ids.filter g.ownsDriver).map f := by
    rw [List.filter_map]
    refine congrArg _ (List.filter_congr fun id hid => ?_)
    obtain ⟨node, hn⟩ := Option.isSome_iff_exists.mp (hlive id hid)
    exact r.ownsDriver hn
  rw [Graph.mountPaths, Graph.mountPaths, hg, hh]
  show ((ids.map f).filter h.ownsDriver).mapM h.pathOf = (ids.filter g.ownsDriver).mapM g.pathOf
  rw [howns, List.mapM_map]
  refine mapM_congr fun id hid => ?_
  obtain ⟨node, hn⟩ := Option.isSome_iff_exists.mp (hlive id (List.mem_filter.mp hid).1)
  exact r.pathOf wg wh hn

end Renumbering

end Graph

end VirtualFs.Mount
