import VirtualFs.Proofs.Mount.Ledger
import VirtualFs.Proofs.Mount.Operations
import VirtualFs.Proofs.Mount.Renumbering

/-!
# The mounts determine the tree

A regular graph has a node for the root and for every way to a mount point, and no others
(`Minimal`), and the children of a node stand in the order of their segments.  So nothing is left
of how the graph came about but the numbers of its nodes: two regular graphs with the same mounts
have a node each at the end of the same routes (`Twins`), and the nodes so paired are the same up to
numbers.

* `Twins.node`: paired nodes agree in everything but numbers.
* `exists_renumbering`: regular graphs with the same mounts are renumberings of each other.
* `operate_determined`: so are the graphs that any two runs of operations leave.
-/

namespace VirtualFs.Mount.Graph

variable {ρ : Type} {g h : Graph ρ}

/-- The nodes are the root and what is on the way to a mount point, each at one route. -/
structure Minimal (g : Graph ρ) : Prop where
  reached : ∀ segments, (∃ id, g.Route root segments id) ↔
    segments = [] ∨ ∃ key record, g.Holds key record ∧ segments <+: key
  one : ∀ {segments a b}, g.Route root segments a → g.Route root segments b → a = b
  placed : ∀ {id node}, g.node? id = some node → ∃! segments, g.Route root segments id

theorem Regular.minimal (r : g.Regular) : g.Minimal where
  reached _ := r.exists_route_iff_holds
  one ra rb := ra.unique r.linked rb
  placed hn := by
    obtain ⟨top, htop, -⟩ := r.linked.root
    obtain ⟨segments, route⟩ := r.linked.exists_route htop (r.linked.below_root hn)
    exact ⟨segments, route, fun _ route' => route'.segments_unique r.linked route⟩

/-- The same records are held at the same segments. -/
def SameMounts (g h : Graph ρ) : Prop :=
  ∀ segments record, g.Holds segments record ↔ h.Holds segments record

theorem SameMounts.symm (s : g.SameMounts h) : h.SameMounts g :=
  fun segments record => (s segments record).symm

/-- The same routes lead somewhere. -/
theorem SameMounts.reached (s : g.SameMounts h) (rg : g.Regular) (rh : h.Regular)
    {segments : List Segment} {a : NodeId} (ra : g.Route root segments a) :
    ∃ b, h.Route root segments b := by
  refine rh.exists_route_iff_holds.mpr ?_
  rcases rg.exists_route_iff_holds.mp ⟨a, ra⟩ with hnil | ⟨key, record, hheld, hpre⟩
  · exact .inl hnil
  · exact .inr ⟨key, record, (s key record).mp hheld, hpre⟩

/-- What is held at a route is the driver of the node at its end. -/
theorem driver_eq_some_iff (w : g.WellLinked) {segments : List Segment} {id : NodeId}
    {node : Node ρ} (r : g.Route root segments id) (hn : g.node? id = some node) {record : ρ} :
    node.driver = some record ↔ g.Holds segments record := by
  refine ⟨fun hd => ⟨id, node, r, hn, hd⟩, ?_⟩
  rintro ⟨j, node', r', hn', hd⟩
  rw [r'.unique w r, hn] at hn'
  cases hn'
  exact hd

/-! ### Nodes at the same route -/

/-- The nodes are at the end of the same route from the root. -/
def Twins (g h : Graph ρ) (a b : NodeId) : Prop :=
  ∃ segments, g.Route root segments a ∧ h.Route root segments b

namespace Twins

variable {a b : NodeId}

theorem symm (t : Twins g h a b) : Twins h g b a := by
  obtain ⟨segments, ra, rb⟩ := t
  exact ⟨segments, rb, ra⟩

/-- A node has one twin. -/
theorem unique (wg : g.WellLinked) (wh : h.WellLinked) {b' : NodeId} (t : Twins g h a b)
    (t' : Twins g h a b') : b = b' := by
  obtain ⟨segments, ra, rb⟩ := t
  obtain ⟨segments', ra', rb'⟩ := t'
  rw [ra'.segments_unique wg ra] at rb'
  exact rb.unique wh rb'

/-- Twins are the roots, or children of twins with one segment. -/
theorem cases (t : Twins g h a b) : (a = Graph.root ∧ b = Graph.root) ∨
    ∃ a' b', Twins g h a' b' ∧ g.Links a' a ∧ h.Links b' b ∧ h.segment b = g.segment a := by
  obtain ⟨segments, ra, rb⟩ := t
  induction segments using List.reverseRecOn with
  | nil =>
      cases ra
      cases rb
      exact .inl ⟨rfl, rfl⟩
  | append_singleton front segment _ =>
      obtain ⟨a', ra', la⟩ := ra.exists_between
      obtain ⟨b', rb', lb⟩ := rb.exists_between
      cases la with
      | down hla hsa la =>
          cases la
          cases lb with
          | down hlb hsb lb =>
              cases lb
              exact .inr ⟨a', b', ⟨front, ra', rb'⟩, hla, hlb, hsb.trans hsa.symm⟩

theorem segment (wg : g.WellLinked) (wh : h.WellLinked) (t : Twins g h a b) :
    h.segment b = g.segment a := by
  rcases t.cases with ⟨rfl, rfl⟩ | ⟨-, -, -, -, -, hs⟩
  · obtain ⟨topg, htopg, hg, -⟩ := wg.root
    obtain ⟨toph, htoph, hh, -⟩ := wh.root
    rw [segment_of_node? htoph, segment_of_node? htopg, hg, hh]
  · exact hs

/-- Every child of a node has a twin among the children of its twin. -/
theorem child (rg : g.Regular) (rh : h.Regular) (s : g.SameMounts h) (t : Twins g h a b)
    {c : NodeId} (hl : g.Links a c) : ∃ d, h.Links b d ∧ Twins g h c d := by
  obtain ⟨segments, ra, rb⟩ := t
  obtain ⟨below, hc⟩ := rg.linked.isTree.exists_of_links hl
  have rc : g.Route Graph.root (segments ++ [g.segment c]) c :=
    ra.append (.down hl rfl (.here hc))
  obtain ⟨d, rd⟩ := s.reached rg rh rc
  obtain ⟨b', rb', last⟩ := rd.exists_between
  rw [rb'.unique rh.linked rb] at last
  cases last with
  | down hld hsd last =>
      cases last
      exact ⟨d, hld, _, rc, rd⟩

variable {na nb : Node ρ}

theorem offset (wg : g.WellLinked) (wh : h.WellLinked) (t : Twins g h a b)
    (ha : g.node? a = some na) (hb : h.node? b = some nb) : nb.offset = na.offset := by
  obtain ⟨segments, ra, rb⟩ := t
  obtain ⟨topg, htopg, -, hg, -⟩ := wg.root
  obtain ⟨toph, htoph, -, hh, -⟩ := wh.root
  rw [rb.offset wh htoph hb, ra.offset wg htopg ha, hg, hh]

theorem driver (wg : g.WellLinked) (wh : h.WellLinked) (s : g.SameMounts h) (t : Twins g h a b)
    (ha : g.node? a = some na) (hb : h.node? b = some nb) : nb.driver = na.driver := by
  obtain ⟨segments, ra, rb⟩ := t
  ext record
  rw [driver_eq_some_iff wh rb hb, driver_eq_some_iff wg ra ha]
  exact (s segments record).symm

variable {f : NodeId → NodeId}

/-- The children of twins are twins, in the same order. -/
theorem children (rg : g.Regular) (rh : h.Regular) (s : g.SameMounts h)
    (hf : ∀ {id node}, g.node? id = some node → Twins g h id (f id)) (t : Twins g h a b)
    (ha : g.node? a = some na) (hb : h.node? b = some nb) : nb.children = na.children.map f := by
  have htwin : ∀ c ∈ na.children, Twins g h c (f c) := fun c hc =>
    hf (rg.linked.isTree.exists_of_links ⟨na, ha, hc⟩).choose_spec
  have hmem : ∀ x, x ∈ nb.children ↔ x ∈ na.children.map f := by
    intro x
    rw [List.mem_map]
    constructor
    · intro hx
      obtain ⟨c, ⟨na', ha', hc⟩, tx⟩ := t.symm.child rh rg s.symm ⟨nb, hb, hx⟩
      rw [ha] at ha'
      cases ha'
      exact ⟨c, hc, (htwin c hc).unique rg.linked rh.linked tx.symm⟩
    · rintro ⟨c, hc, rfl⟩
      obtain ⟨d, ⟨nb', hb', hd⟩, tc⟩ := t.child rg rh s ⟨na, ha, hc⟩
      rw [hb] at hb'
      cases hb'
      rwa [(htwin c hc).unique rg.linked rh.linked tc]
  -- both lists are in the order of the segments, which leaves one order for the same members
  have hsorted : (na.children.map f).Pairwise fun x y =>
      Segment.Before (h.segment x) (h.segment y) := by
    refine List.pairwise_map.mpr ((rg.linked.sorted ha).imp_of_mem fun {x y} hx hy hxy => ?_)
    rwa [(htwin x hx).segment rg.linked rh.linked, (htwin y hy).segment rg.linked rh.linked]
  have hnodup : (na.children.map f).Nodup :=
    hsorted.imp fun hxy e => hxy.ne (congrArg h.segment e)
  refine List.Perm.eq_of_pairwise (fun x y _ _ hxy hyx => ?_) (rh.linked.sorted hb) hsorted
    ((List.perm_ext_iff_of_nodup (rh.linked.isTree.nodup_children hb) hnodup).mpr hmem)
  rw [Segment.before_iff_gt, hyx] at hxy
  cases hxy

theorem parent (wg : g.WellLinked) (wh : h.WellLinked)
    (hf : ∀ {id node}, g.node? id = some node → Twins g h id (f id)) (t : Twins g h a b)
    (ha : g.node? a = some na) (hb : h.node? b = some nb) : nb.parent = na.parent.map f := by
  rcases t.cases with ⟨rfl, rfl⟩ | ⟨a', b', t', ⟨above, ha', hma⟩, ⟨above', hb', hmb⟩, -⟩
  · obtain ⟨topg, htopg, -, -, hg⟩ := wg.root
    obtain ⟨toph, htoph, -, -, hh⟩ := wh.root
    rw [ha] at htopg
    cases htopg
    rw [hb] at htoph
    cases htoph
    rw [hg, hh]
    rfl
  · obtain ⟨na', hna, hpa⟩ := wg.down ha' hma
    obtain ⟨nb', hnb, hpb⟩ := wh.down hb' hmb
    rw [ha] at hna
    cases hna
    rw [hb] at hnb
    cases hnb
    rw [hpa, hpb, Option.map_some, t'.unique wg wh (hf ha')]

/-- **Twins are the same node** under other numbers. -/
theorem node_eq (rg : g.Regular) (rh : h.Regular) (s : g.SameMounts h)
    (hf : ∀ {id node}, g.node? id = some node → Twins g h id (f id)) (t : Twins g h a b)
    (ha : g.node? a = some na) (hb : h.node? b = some nb) : nb = na.rename f := by
  have hsegment := t.segment rg.linked rh.linked
  rw [segment_of_node? ha, segment_of_node? hb] at hsegment
  have hoffset := t.offset rg.linked rh.linked ha hb
  have hdriver := t.driver rg.linked rh.linked s ha hb
  have hchildren := t.children rg rh s hf ha hb
  have hparent := t.parent rg.linked rh.linked hf ha hb
  cases nb
  cases na
  simp_all only [Node.rename]

end Twins

/-! ### Reading the mounts off -/

/-- The mounts, read upwards from every node that owns a driver. -/
def entries (g : Graph ρ) : Ledger ρ :=
  g.liveIds.filterMap fun id => do
    let node ← g.node? id
    let record ← node.driver
    let upward ← (g.ascend (g.nodes.size + 1) (some id)).toOption
    return (upward.reverse, record)

/-- What is read off is what is held. -/
theorem WellLinked.represents_entries (w : g.WellLinked) : g.Represents g.entries := by
  have hascend : ∀ {segments id}, g.Route Graph.root segments id →
      g.ascend (g.nodes.size + 1) (some id) = .ok segments.reverse := fun route =>
    ascend_eq w route (Nat.lt_succ_of_le (route.length_le w))
  obtain ⟨top, htop, -⟩ := w.root
  intro segments record
  rw [entries, List.mem_filterMap]
  constructor
  · rintro ⟨id, node, route, hn, hd⟩
    refine ⟨id, mem_liveIds.mpr (by rw [hn]; rfl), ?_⟩
    simp [hn, hd, hascend route, Except.toOption]
  · rintro ⟨id, hid, he⟩
    obtain ⟨node, hn⟩ := Option.isSome_iff_exists.mp (mem_liveIds.mp hid)
    obtain ⟨segments', route⟩ := w.exists_route htop (w.below_root hn)
    cases hd : node.driver with
    | none => simp [hn, hd] at he
    | some record' =>
        simp only [hn, hd, hascend route, Except.toOption, bind, Option.bind] at he
        cases he
        rw [List.reverse_reverse]
        exact ⟨id, node, route, hn, hd⟩

/-- The same mounts are read off from both graphs. -/
theorem sameMounts_of_entries (wg : g.WellLinked) (wh : h.WellLinked)
    (he : ∀ entry, entry ∈ g.entries ↔ entry ∈ h.entries) : g.SameMounts h :=
  fun segments record => (wg.represents_entries segments record).trans
    ((he _).trans (wh.represents_entries segments record).symm)

/-! ### The same tree -/

/-- **Regular graphs with the same mounts** are the same up to the numbers of their nodes. -/
theorem exists_renumbering (rg : g.Regular) (rh : h.Regular) (s : g.SameMounts h) :
    ∃ f, Renumbering f g h := by
  have htwin : ∀ id, ∃ j, ∀ node, g.node? id = some node → Twins g h id j := by
    intro id
    cases hn : g.node? id with
    | none => exact ⟨id, nofun⟩
    | some node =>
        obtain ⟨segments, route, -⟩ := rg.minimal.placed hn
        obtain ⟨j, route'⟩ := s.reached rg rh route
        exact ⟨j, fun _ _ => ⟨segments, route, route'⟩⟩
  obtain ⟨f, hf⟩ := Classical.axiomOfChoice htwin
  have hf : ∀ {id node}, g.node? id = some node → Twins g h id (f id) := fun hn => hf _ _ hn
  refine ⟨f, ⟨?_, fun {id node} hn => ?_, fun {j node} hj => ?_, fun {a b} ha hb e => ?_⟩⟩
  · obtain ⟨topg, htopg, -⟩ := rg.linked.root
    obtain ⟨toph, htoph, -⟩ := rh.linked.root
    exact (hf htopg).unique rg.linked rh.linked ⟨[], .here htopg, .here htoph⟩
  · obtain ⟨segments, route, route'⟩ := hf hn
    obtain ⟨node', hn'⟩ := route'.exists_end
    rw [hn', Twins.node_eq rg rh s hf ⟨segments, route, route'⟩ hn hn']
  · obtain ⟨segments, route, -⟩ := rh.minimal.placed hj
    obtain ⟨id, route'⟩ := s.symm.reached rh rg route
    obtain ⟨node', hn⟩ := route'.exists_end
    exact ⟨id, by rw [hn]; rfl, (hf hn).unique rg.linked rh.linked ⟨segments, route', route⟩⟩
  · obtain ⟨na, hna⟩ := Option.isSome_iff_exists.mp ha
    obtain ⟨nb, hnb⟩ := Option.isSome_iff_exists.mp hb
    have tb := hf hnb
    rw [← e] at tb
    exact (hf hna).symm.unique rh.linked rg.linked tb.symm

/-- One tree, as far as can be told without looking at numbers. -/
structure SameTree (f : NodeId → NodeId) (g h : Graph ρ) : Prop where
  /-- Segments, offsets, drivers, parents, and children in their order. -/
  renumbering : Renumbering f g h
  nodes : h.live = g.live
  mounts : h.mountPaths = g.mountPaths
  /-- Every look-up finds the node with the same path. -/
  find : ∀ path mode, h.find path mode = (g.find path mode).map f ∧
    (h.find path mode).map h.pathOf = (g.find path mode).map g.pathOf
  /-- The child that comes after a name is the same. -/
  next : ∀ {id node}, g.node? id = some node → ∀ after,
    h.childAfter (f id) after = (g.childAfter id after).map (Node.rename f)

/-- What a look-up finds is there. -/
theorem exists_of_find (w : g.WellLinked) {path : Path} {mode : Mode} {id : NodeId}
    (hfind : g.find path mode = some id) : ∃ node, g.node? id = some node := by
  obtain ⟨top, htop, -⟩ := w.root
  rw [find] at hfind
  cases hrest : Path.belowRoot? path with
  | none =>
      rw [hrest] at hfind
      cases hfind
  | some rest =>
      rw [hrest] at hfind
      cases mode with
      | driver =>
          have hlast := walk_driver w htop none rest
          rw [show g.walk .driver root none rest = some id from hfind] at hlast
          rcases hlast with ⟨front, back, j, -, he, route, -⟩ | ⟨he, -⟩
          · cases he
            exact route.exists_end
          · cases he
      | exact => exact ((walk_exact w htop).mp hfind).exists_end
      | deepest =>
          obtain ⟨front, back, j, -, hwalk, route, -⟩ := walk_deepest w htop none rest
          rw [show g.walk .deepest root none rest = some id from hfind] at hwalk
          cases hwalk
          exact route.exists_end

theorem Renumbering.sameTree {f : NodeId → NodeId} (r : Renumbering f g h) (rg : g.Regular)
    (rh : h.Regular) : SameTree f g h where
  renumbering := r
  nodes := r.live rg.numbered rh.numbered
  mounts := r.mountPaths rg.linked rh.linked
  find path mode := by
    have hfind := r.find rg.linked path mode
    refine ⟨hfind, ?_⟩
    rw [hfind]
    cases hid : g.find path mode with
    | none => rfl
    | some id =>
        obtain ⟨node, hn⟩ := exists_of_find rg.linked hid
        exact congrArg some (r.pathOf rg.linked rh.linked hn)
  next hn after := r.childAfter rg.linked hn after

/-- Every run leaves a regular graph. -/
theorem regular_of_operate [DecidableEq ρ] {limit : Nat} {operations : List (Operation ρ)}
    (hrun : operate limit operations = .ok g) : g.Regular := by
  have hstart : (withLimit limit : Graph ρ).Regular := regular_withLimit limit
  obtain ⟨h, hrun', r, -⟩ := hstart.foldlM_operation operations
  rw [operate, hrun'] at hrun
  cases hrun
  exact r

/-- **The mounts determine the tree**: whatever two runs of operations did on their way, if they
leave the same mounts, they leave the same tree, which has no other nodes than the root and those on
the way to a mount point. -/
theorem operate_determined [DecidableEq ρ] {limit limit' : Nat}
    {operations operations' : List (Operation ρ)} (hg : operate limit operations = .ok g)
    (hh : operate limit' operations' = .ok h) (s : g.SameMounts h) :
    g.Minimal ∧ h.Minimal ∧ ∃ f, SameTree f g h := by
  have rg := regular_of_operate hg
  have rh := regular_of_operate hh
  obtain ⟨f, r⟩ := exists_renumbering rg rh s
  exact ⟨rg.minimal, rh.minimal, f, r.sameTree rg rh⟩

/-- Mounts that failed or were taken back leave nothing but other numbers. -/
theorem operate_determined_detour : ∃ g h : Graph Nat,
    operate 9 [.attach ['/', 'a'] 1, .attach ['/', 'b'] 2] = .ok g ∧
    operate 9 [.attach ['/', 'x'] 3, .attach ['/', 'b'] 2, .attach ['/', 'b'] 4,
      .attach ['/', 'a'] 1, .detach 1 3] = .ok h ∧
    g.SameMounts h ∧ g.Minimal ∧ h.Minimal ∧ ∃ f, SameTree f g h := by
  let a : Node Nat := ⟨['a'], 3, some 1, [], some 0⟩
  let b : Node Nat := ⟨['b'], 3, some 2, [], some 0⟩
  let g : Graph Nat := ⟨#[some ⟨[], 1, none, [1, 2], none⟩, some a, some b], [], 9, 3⟩
  let h : Graph Nat := ⟨#[some ⟨[], 1, none, [3, 2], none⟩, none, some b, some a], [1], 9, 3⟩
  have hg : operate 9 [.attach ['/', 'a'] 1, .attach ['/', 'b'] 2] = .ok g := by decide +kernel
  have hh : operate 9 [.attach ['/', 'x'] 3, .attach ['/', 'b'] 2, .attach ['/', 'b'] 4,
      .attach ['/', 'a'] 1, .detach 1 3] = .ok h := by decide +kernel
  have hsame : g.SameMounts h := by
    refine sameMounts_of_entries (regular_of_operate hg).linked (regular_of_operate hh).linked ?_
    have hge : g.entries = [([['a']], 1), ([['b']], 2)] := by decide +kernel
    have hhe : h.entries = [([['b']], 2), ([['a']], 1)] := by decide +kernel
    intro entry
    rw [hge, hhe]
    exact (List.Perm.swap _ _ []).mem_iff
  exact ⟨g, h, hg, hh, hsame, operate_determined hg hh hsame⟩

end VirtualFs.Mount.Graph
