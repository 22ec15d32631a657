import VirtualFs.Proofs.Mount.Supply

/-!
# Adding a node

A new node gets a number that was dead, and its place among the children of its parent.
`Inserted` says all of it, and the rest follows: the graph stays well-linked and is grown by one
node.

* `addChild_eq`, `addChild_full`: a child is added if no sibling has the segment and there is room.
* `Inserted.wellLinked`, `Inserted.grown`: what the graph is then.
-/

namespace VirtualFs.Mount.Graph

variable {ρ : Type} {g h : Graph ρ}

/-! ### A number for it -/

theorem node?_allocate (n : g.Numbered) (node : Node ρ) (id : NodeId) :
    (g.allocate node).1.node? id =
      if id = (g.allocate node).2 then some node else g.node? id := by
  rw [allocate]
  cases hf : g.free with
  | nil =>
      show (Graph.node? ⟨g.nodes.push _, _, _, _⟩ id) = _
      simp only [node?, Array.getD_eq_getD_getElem?, Array.getElem?_push]
      split <;> rfl
  | cons new free =>
      have hnew : new < g.nodes.size := ((n.free new).mp (hf ▸ List.mem_cons_self)).1
      show (g.write new (some node)).node? id = _
      rw [node?_write]
      simp [hnew]

/-- The number given out was dead. -/
theorem node?_allocate_fresh (n : g.Numbered) (node : Node ρ) :
    g.node? (g.allocate node).2 = none := by
  rw [allocate]
  cases hf : g.free with
  | nil =>
      show g.node? g.nodes.size = none
      simp [node?, Array.getD_eq_getD_getElem?]
  | cons new free => exact ((n.free new).mp (hf ▸ List.mem_cons_self)).2

theorem limit_allocate (node : Node ρ) : (g.allocate node).1.limit = g.limit := by
  rw [allocate]
  split <;> rfl

theorem live_allocate (node : Node ρ) : (g.allocate node).1.live = g.live := by
  rw [allocate]
  split <;> rfl

/-- With the new node counted, the books are right again. -/
theorem numbered_allocate (n : g.Numbered) (node : Node ρ) (hroom : g.live < g.limit) :
    { (g.allocate node).1 with live := g.live + 1 }.Numbered := by
  have hnode := node?_allocate n node
  have hfresh := node?_allocate_fresh n node
  have hlive := n.live
  rw [allocate] at hnode hfresh ⊢
  cases hf : g.free with
  | nil =>
      -- the arena grows by the new number
      rw [hf] at hnode hfresh hlive
      refine ⟨.nil, fun id => ?_, ?_, hroom⟩
      · have hid := n.free id
        show id ∈ [] ↔
          id < (g.nodes.push _).size ∧ (Graph.node? ⟨g.nodes.push _, _, _, _⟩ id) = none
        rw [hf] at hid
        rw [Array.size_push]
        simp only [List.not_mem_nil, false_iff] at hid ⊢
        rintro ⟨hlt, hnone⟩
        have hid' := (hnode id).symm.trans hnone
        by_cases he : id = g.nodes.size
        · rw [if_pos he] at hid'
          cases hid'
        · rw [if_neg he] at hid'
          exact hid ⟨Nat.lt_of_le_of_ne (Nat.le_of_lt_succ hlt) he, hid'⟩
      · show g.live + 1 + 0 = (g.nodes.push _).size
        rw [Array.size_push, ← hlive]
        rfl
  | cons new free =>
      -- the first free number is the new one
      have hnodup := n.nodup
      rw [hf] at hnode hfresh hlive hnodup
      obtain ⟨hnew, hnodup⟩ := List.nodup_cons.mp hnodup
      refine ⟨hnodup, fun id => ?_, ?_, hroom⟩
      · have hid := n.free id
        show id ∈ free ↔ id < (g.write new (some node)).nodes.size ∧
          (g.write new (some node)).node? id = none
        have hid' : (g.write new (some node)).node? id =
            if id = new then some node else g.node? id := hnode id
        rw [hid', size_write]
        rw [hf, List.mem_cons] at hid
        by_cases he : id = new
        · simp [he, hnew]
        · simpa [he] using hid
      · show g.live + 1 + free.length = (g.write new (some node)).nodes.size
        rw [size_write, ← hlive, List.length_cons]
        omega

/-- Another live node at a number changes nothing in the books. -/
theorem Numbered.write (n : g.Numbered) {id : NodeId} {node : Node ρ} (hn : g.node? id = some node)
    (node' : Node ρ) : (g.write id (some node')).Numbered where
  nodup := n.nodup
  free j := by
    rw [node?_write_of_node? hn, size_write]
    show j ∈ g.free ↔ _
    rw [n.free j]
    by_cases hj : j = id
    · simp [hj, hn]
    · simp [hj]
  live := by
    rw [size_write]
    exact n.live
  limit := n.limit

/-! ### Its place -/

theorem insertIdx_append {α : Type} (l r : List α) (a : α) :
    (l ++ r).insertIdx l.length a = l ++ a :: r := by
  induction l with
  | nil => rfl
  | cons b l ih => simp [ih]

/-- A graph with a new childless node below `parent`, between the children `l` and `r`. -/
structure Inserted (g : Graph ρ) (parent : NodeId) (above : Node ρ) (l r : List NodeId)
    (segment : Segment) (new : NodeId) (h : Graph ρ) : Prop where
  found : g.node? parent = some above
  children : above.children = l ++ r
  fresh : g.node? new = none
  node : ∀ id, h.node? id =
    if id = new then
      some ⟨segment, above.offset + Path.byteLength segment + 1, none, [], some parent⟩
    else if id = parent then some { above with children := l ++ new :: r } else g.node? id
  smaller : ∀ c ∈ l, Segment.Before (g.segment c) segment
  greater : ∀ c ∈ r, Segment.Before segment (g.segment c)

/-- **Adding a child** where there is room and no child has the segment. -/
theorem addChild_eq (w : g.WellLinked) (n : g.Numbered) {parent : NodeId} {above : Node ρ}
    (habove : g.node? parent = some above) (hroom : g.live < g.limit) {segment : Segment}
    (hvacant : ∀ c ∈ above.children, g.segment c ≠ segment) :
    ∃ l r new h, g.addChild parent segment = .ok (.ok (h, new)) ∧
      g.Inserted parent above l r segment new h ∧ h.Numbered ∧
      g.supply = Stream'.cons new h.supply ∧ h.limit = g.limit ∧ h.live = g.live + 1 := by
  obtain ⟨l, r, hlr, hplace, hl, hr⟩ := Search.place_vacant (w.ascending habove segment)
    fun c hc he => hvacant c hc (Segment.order_eq_iff.mp he)
  let fresh : Node ρ :=
    ⟨segment, above.offset + Path.byteLength segment + 1, none, [], some parent⟩
  have hnode := node?_allocate n fresh
  have hfresh := node?_allocate_fresh n fresh
  have hne : parent ≠ (g.allocate fresh).2 := by
    intro e
    rw [e, hfresh] at habove
    cases habove
  have hparent : (g.allocate fresh).1.node? parent = some above := by
    rw [hnode, if_neg hne, habove]
  have hmodify := modify_eq_ok hparent fun above =>
    { above with children := above.children.insertIdx l.length (g.allocate fresh).2 }
  have hbooks := (numbered_allocate n fresh hroom).write (show _ = some above from hparent)
    { above with children := above.children.insertIdx l.length (g.allocate fresh).2 }
  have hlive := live_allocate (g := g) fresh
  refine ⟨l, r, (g.allocate fresh).2, _, ?_, ⟨habove, hlr, hfresh, fun id => ?_, hl, fun c hc =>
    Segment.before_iff_gt.mpr (hr c hc)⟩, hbooks, ?_, limit_allocate fresh, rfl⟩
  · rw [addChild, if_neg (Nat.not_le.mpr hroom)]
    simp only [node_eq_ok habove, hplace, bind, Except.bind, pure, Except.pure]
    simp only [show g.allocate ⟨segment, above.offset + Path.byteLength segment + 1, none, [],
      some parent⟩ = g.allocate fresh from rfl, hmodify]
    rw [show ((g.allocate fresh).1.write parent _).live = g.live from hlive]
    rfl
  · show ((g.allocate fresh).1.write parent _).node? id = _
    rw [node?_write_of_node? hparent, hnode, hlr, insertIdx_append]
    by_cases hid : id = parent
    · rw [hid, if_pos rfl, if_neg hne, if_pos rfl]
    · rw [if_neg hid, if_neg hid]
  · rw [supply_allocate g fresh]
    exact congrArg _ (supply_write _ parent _).symm

/-- Where there is no room, nothing is added. -/
theorem addChild_full (hfull : g.limit ≤ g.live) (parent : NodeId) (segment : Segment) :
    g.addChild parent segment = .ok (.error .noMemory) := by
  rw [addChild, if_pos hfull]
  rfl

/-! ### What the graph is then -/

namespace Inserted

variable {parent new : NodeId} {above : Node ρ} {l r : List NodeId} {segment : Segment}

theorem parent_ne (i : g.Inserted parent above l r segment new h) : parent ≠ new := by
  intro e
  have habove := i.found
  rw [e, i.fresh] at habove
  cases habove

theorem ne_new (i : g.Inserted parent above l r segment new h) {id : NodeId} {node : Node ρ}
    (hn : g.node? id = some node) : id ≠ new := by
  rintro rfl
  rw [i.fresh] at hn
  cases hn

theorem node?_new (i : g.Inserted parent above l r segment new h) : h.node? new =
    some ⟨segment, above.offset + Path.byteLength segment + 1, none, [], some parent⟩ := by
  rw [i.node, if_pos rfl]

theorem node?_parent (i : g.Inserted parent above l r segment new h) :
    h.node? parent = some { above with children := l ++ new :: r } := by
  rw [i.node, if_neg i.parent_ne, if_pos rfl]

/-- The other nodes are as they were. -/
theorem node?_other (i : g.Inserted parent above l r segment new h) {id : NodeId}
    (hnew : id ≠ new) (hparent : id ≠ parent) : h.node? id = g.node? id := by
  rw [i.node, if_neg hnew, if_neg hparent]

/-- An old node is the same but for a new child of `parent`. -/
theorem exists_node (i : g.Inserted parent above l r segment new h) {id : NodeId} {node : Node ρ}
    (hn : g.node? id = some node) : ∃ node', h.node? id = some node' ∧
      node'.segment = node.segment ∧ node'.offset = node.offset ∧ node'.driver = node.driver ∧
      node'.parent = node.parent ∧ node.children ⊆ node'.children := by
  by_cases hid : id = parent
  · subst hid
    rw [i.found] at hn
    cases hn
    exact ⟨_, i.node?_parent, rfl, rfl, rfl, rfl, by
      rw [i.children]
      exact List.append_subset.mpr ⟨List.subset_append_left _ _,
        fun c hc => List.mem_append_right _ (List.mem_cons_of_mem _ hc)⟩⟩
  · exact ⟨node, by rw [i.node?_other (i.ne_new hn) hid, hn], rfl, rfl, rfl, rfl, fun _ hc => hc⟩

theorem segment_new (i : g.Inserted parent above l r segment new h) : h.segment new = segment := by
  rw [Graph.segment, i.node?_new]

theorem segment_eq (i : g.Inserted parent above l r segment new h) {id : NodeId} (hid : id ≠ new) :
    h.segment id = g.segment id := by
  by_cases hp : id = parent
  · rw [hp, Graph.segment, Graph.segment, i.node?_parent, i.found]
  · rw [Graph.segment, Graph.segment, i.node?_other hid hp]

theorem links_new (i : g.Inserted parent above l r segment new h) : h.Links parent new :=
  ⟨_, i.node?_parent, by simp⟩

/-- A node that is not the new one was there, and has at most the new one as a new child. -/
theorem exists_old (i : g.Inserted parent above l r segment new h) {id : NodeId} {node : Node ρ}
    (hn : h.node? id = some node) (hid : id ≠ new) : ∃ old, g.node? id = some old ∧
      node.segment = old.segment ∧ node.offset = old.offset ∧ node.parent = old.parent ∧
      ∀ c ∈ node.children, c ∈ old.children ∨ c = new ∧ id = parent := by
  by_cases hp : id = parent
  · subst hp
    rw [i.node?_parent] at hn
    cases hn
    refine ⟨above, i.found, rfl, rfl, rfl, ?_⟩
    intro c hc
    rw [i.children]
    rcases List.mem_append.mp hc with hc | hc
    · exact .inl (List.mem_append_left _ hc)
    · rcases List.mem_cons.mp hc with rfl | hc
      · exact .inr ⟨rfl, rfl⟩
      · exact .inl (List.mem_append_right _ hc)
  · rw [i.node?_other hid hp] at hn
    exact ⟨node, hn, rfl, rfl, rfl, fun _ => .inl⟩

/-- Children that were there before have the segments they had. -/
theorem segment_child (i : g.Inserted parent above l r segment new h) (w : g.WellLinked)
    {id : NodeId} {node : Node ρ} (hn : g.node? id = some node) :
    ∀ c ∈ node.children, h.segment c = g.segment c := by
  intro c hc
  obtain ⟨below, hbelow, -⟩ := w.down hn hc
  exact i.segment_eq (i.ne_new hbelow)

/-- The new child is in its place among the others. -/
theorem sorted_children (i : g.Inserted parent above l r segment new h) (w : g.WellLinked) :
    (l ++ new :: r).Pairwise fun a b => Segment.Before (h.segment a) (h.segment b) := by
  have hsorted := w.sorted i.found
  have hold := i.segment_child w i.found
  rw [i.children] at hsorted hold
  obtain ⟨hl, hr, hlr⟩ := List.pairwise_append.mp hsorted
  have el : ∀ c ∈ l, h.segment c = g.segment c := fun c hc => hold c (List.mem_append_left _ hc)
  have er : ∀ c ∈ r, h.segment c = g.segment c := fun c hc => hold c (List.mem_append_right _ hc)
  refine List.pairwise_append.mpr ⟨?_, List.pairwise_cons.mpr ⟨?_, ?_⟩, ?_⟩
  · refine hl.imp_of_mem ?_
    intro _ _ ha hb hab
    rwa [el _ ha, el _ hb]
  · intro b hb
    rw [i.segment_new, er b hb]
    exact i.greater b hb
  · refine hr.imp_of_mem ?_
    intro _ _ ha hb hab
    rwa [er _ ha, er _ hb]
  · intro a ha b hb
    rw [el a ha]
    rcases List.mem_cons.mp hb with rfl | hb
    · rw [i.segment_new]
      exact i.smaller a ha
    · rw [er b hb]
      exact hlr a ha b hb

/-- **A graph stays well-linked** when a node is added. -/
theorem wellLinked (i : g.Inserted parent above l r segment new h) (w : g.WellLinked)
    (hsegment : Path.delimiter ∉ segment ∧ Path.byteLength segment ≤ Limits.maxFilenameLength) :
    h.WellLinked where
  root := by
    obtain ⟨top, htop, h₁, h₂, h₃⟩ := w.root
    obtain ⟨top', htop', e₁, e₂, -, e₃, -⟩ := i.exists_node htop
    exact ⟨top', htop', e₁.trans h₁, e₂.trans h₂, e₃.trans h₃⟩
  up {id node} hn hne := by
    by_cases hid : id = new
    · subst hid
      rw [i.node?_new] at hn
      cases hn
      exact ⟨parent, _, rfl, i.node?_parent, by simp, rfl⟩
    · obtain ⟨old, hold, e₁, e₂, e₃, -⟩ := i.exists_old hn hid
      obtain ⟨p, up, hp, hup, hmem, hoff⟩ := w.up hold hne
      obtain ⟨up', hup', -, e₄, -, -, hsub⟩ := i.exists_node hup
      exact ⟨p, up', e₃.trans hp, hup', hsub hmem, by rw [e₂, e₁, e₄, hoff]⟩
  down {id node child} hn hc := by
    by_cases hid : id = new
    · rw [hid, i.node?_new] at hn
      cases hn
      cases hc
    · obtain ⟨old, hold, -, -, -, hchildren⟩ := i.exists_old hn hid
      rcases hchildren child hc with hc | ⟨rfl, rfl⟩
      · obtain ⟨below, hbelow, hparent⟩ := w.down hold hc
        obtain ⟨below', hbelow', -, -, -, e, -⟩ := i.exists_node hbelow
        exact ⟨below', hbelow', e.trans hparent⟩
      · exact ⟨_, i.node?_new, rfl⟩
  sorted {id node} hn := by
    by_cases hid : id = new
    · rw [hid, i.node?_new] at hn
      cases hn
      exact .nil
    · by_cases hp : id = parent
      · rw [hp, i.node?_parent] at hn
        cases hn
        exact i.sorted_children w
      · rw [i.node?_other hid hp] at hn
        have hold := i.segment_child w hn
        refine (w.sorted hn).imp_of_mem ?_
        intro _ _ ha hb hab
        rwa [hold _ ha, hold _ hb]
  segment {id node} hn := by
    by_cases hid : id = new
    · rw [hid, i.node?_new] at hn
      cases hn
      exact hsegment
    · obtain ⟨old, hold, e, -⟩ := i.exists_old hn hid
      rw [e]
      exact w.segment hold

/-- A graph with a new node is grown by it. -/
theorem grown (i : g.Inserted parent above l r segment new h) (w : g.WellLinked)
    (hlimit : h.limit = g.limit) (hlive : h.live = g.live + 1) : g.Grown [new] h where
  without id := by
    have hold : ∀ {node : Node ρ}, g.node? id = some node → ∀ c ∈ node.children, c ∉ [new] :=
      fun hn c hc => by
        obtain ⟨below, hbelow, -⟩ := w.down hn hc
        simpa using i.ne_new hbelow
    by_cases hid : id = new
    · rw [node?_without, if_pos (by simpa using hid), hid, i.fresh]
    · rw [node?_without_of_not_mem (by simpa using hid)]
      by_cases hp : id = parent
      · subst hp
        have hold := hold i.found
        rw [i.children] at hold
        rw [i.node?_parent, i.found, Option.map_some]
        refine congrArg some ?_
        rw [Node.dropChildren, List.filter_append, List.filter_cons_of_neg (by simp),
          List.filter_eq_self.mpr fun c hc => by simpa using hold c (List.mem_append_left _ hc),
          List.filter_eq_self.mpr fun c hc => by simpa using hold c (List.mem_append_right _ hc),
          ← i.children]
      · rw [i.node?_other hid hp]
        cases hn : g.node? id with
        | none => rfl
        | some node =>
            rw [Option.map_some, Node.dropChildren,
              List.filter_eq_self.mpr fun c hc => by simpa using hold hn c hc]
  severable := by
    refine ⟨fun hr => ?_, fun {a b} ha hl => ?_⟩
    · obtain ⟨top, htop, -⟩ := w.root
      exact i.ne_new htop (List.mem_singleton.mp hr)
    · obtain ⟨node, hn, hmem⟩ := hl
      rw [List.mem_singleton.mp ha, i.node?_new] at hn
      cases hn
      cases hmem
  nodup := by simp
  idle id hid := by
    rw [List.mem_singleton.mp hid]
    exact ⟨_, i.node?_new, rfl⟩
  limit := hlimit
  live := hlive

end Inserted

end VirtualFs.Mount.Graph
