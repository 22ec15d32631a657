import VirtualFs.Proofs.Mount.Without

/-!
# Pruning

What cleaning takes out of a graph that is a tree.  On a tree of numbers, with a test for the nodes
that own drivers, `Tree.stays` says that something at or below the top leads to a driver (or that
the top is the root), and `Tree.fallen` lists what goes, in the order in which it goes: children
before their parent.

* `pruneSubtree_eq`: cleaning a subtree takes its fallen nodes out, and answers whether its top
  stays.
* `prune_eq`: the depth that `prune` allows for is enough.
-/

namespace VirtualFs.Mount

namespace Tree

variable {owns : NodeId → Bool}

/-- The top is the root, or it or a node below it owns a driver. -/
def stays (owns : NodeId → Bool) : Tree → Bool
  | node id below => id == Graph.root || owns id || below.attach.any fun ⟨t, _⟩ => t.stays owns

theorem stays_node (id : NodeId) (below : List Tree) : (node id below).stays owns =
    (id == Graph.root || owns id || below.any fun t => t.stays owns) := by
  rw [stays]
  simp

/-- The nodes that cleaning takes out, children first. -/
def fallen (owns : NodeId → Bool) : Tree → List NodeId
  | node id below =>
    if owns id then []
    else (below.flatMap fun t => t.fallen owns) ++ if (node id below).stays owns then [] else [id]

theorem fallen_subset (t : Tree) : t.fallen owns ⊆ t.ids := by
  induction t with
  | node id below ih =>
      intro j hj
      rw [fallen] at hj
      split at hj
      · cases hj
      · rw [ids]
        rcases List.mem_append.mp hj with hj | hj
        · obtain ⟨t, ht, hjt⟩ := List.mem_flatMap.mp hj
          exact List.mem_cons_of_mem _ (List.mem_flatMap.mpr ⟨t, ht, ih t ht hjt⟩)
        · split at hj
          · cases hj
          · rw [List.mem_singleton.mp hj]
            exact List.mem_cons_self

theorem nodup_fallen (owns : NodeId → Bool) {t : Tree} (h : t.ids.Nodup) :
    (t.fallen owns).Nodup := by
  induction t with
  | node id below ih =>
      rw [ids, List.nodup_cons, List.nodup_flatMap] at h
      obtain ⟨hid, hbelow, hdisj⟩ := h
      rw [fallen]
      split
      · exact .nil
      · have hflat : (below.flatMap fun t => t.fallen owns).Nodup :=
          List.nodup_flatMap.mpr ⟨fun t ht => ih t ht (hbelow t ht),
            hdisj.imp fun hab j ha hb => hab (fallen_subset _ ha) (fallen_subset _ hb)⟩
        split
        · simpa using hflat
        · refine List.nodup_append'.mpr ⟨hflat, by simp, fun j hj hjid => hid ?_⟩
          obtain ⟨t, ht, hjt⟩ := List.mem_flatMap.mp hj
          rw [← List.mem_singleton.mp hjid]
          exact List.mem_flatMap.mpr ⟨t, ht, fallen_subset t hjt⟩

/-- The top is not among what falls below it. -/
theorem id_not_mem_below {id : NodeId} {below : List Tree} (h : (node id below).ids.Nodup) :
    id ∉ below.flatMap fun t => t.fallen owns := by
  rw [ids, List.nodup_cons] at h
  intro hid
  obtain ⟨t, ht, hidt⟩ := List.mem_flatMap.mp hid
  exact h.1 (List.mem_flatMap.mpr ⟨t, ht, fallen_subset t hidt⟩)

/-- The top goes exactly if it does not stay. -/
theorem id_mem_fallen (owns : NodeId → Bool) {t : Tree} (h : t.ids.Nodup) :
    t.id ∈ t.fallen owns ↔ t.stays owns = false := by
  cases t with
  | node id below =>
      have hbelow : id ∉ below.flatMap fun t => t.fallen owns := id_not_mem_below h
      rw [fallen]
      by_cases hown : owns id = true
      · simp [hown, stays_node]
      · rw [if_neg hown, List.mem_append, Tree.id]
        cases hstays : (node id below).stays owns <;> simp [hbelow]

theorem root_not_mem_fallen (t : Tree) : Graph.root ∉ t.fallen owns := by
  induction t with
  | node id below ih =>
      rw [fallen]
      split
      · simp
      · rw [List.mem_append, List.mem_flatMap]
        rintro (⟨t, ht, hroot⟩ | hroot)
        · exact ih t ht hroot
        · split at hroot
          · cases hroot
          · rename_i hstays
            rw [← List.mem_singleton.mp hroot] at hstays
            simp [stays_node] at hstays

end Tree

namespace Graph

variable {ρ : Type} {g : Graph ρ} {owns : NodeId → Bool}

theorem Spans.without {t : Tree} (h : g.Spans t) {gone : List NodeId}
    (hdisj : ∀ j ∈ t.ids, j ∉ gone) : (g.without gone).Spans t := by
  induction t with
  | node id below ih =>
      cases h with
      | node h hc hb =>
          rename_i node
          have hsub : ∀ t ∈ below, ∀ j ∈ t.ids, j ∉ gone := fun t ht j hj =>
            hdisj j (by
              rw [Tree.ids]
              exact List.mem_cons_of_mem _ (List.mem_flatMap.mpr ⟨t, ht, hj⟩))
          have hnode : (g.without gone).node? id = some (node.dropChildren gone) := by
            rw [node?_without_of_not_mem (hdisj id (Tree.id_mem_ids _)), h]
            rfl
          refine .node hnode ?_ fun t ht => ih t ht (hb t ht) (hsub t ht)
          show node.children.filter _ = _
          rw [hc, List.filter_eq_self.mpr fun c hc => ?_]
          obtain ⟨t, ht, rfl⟩ := List.mem_map.mp hc
          simpa using hsub t ht t.id t.id_mem_ids

/-- What falls takes its children along. -/
theorem Spans.severable (owns : NodeId → Bool) (w : g.IsTree) {t : Tree} (h : g.Spans t) :
    g.Severable (t.fallen owns) where
  root := t.root_not_mem_fallen
  down := by
    induction t with
    | node id below ih =>
        cases h with
        | node h hc hb =>
            rename_i node
            intro j child hj hl
            rw [Tree.fallen] at hj ⊢
            split
            · rename_i hown
              simp [hown] at hj
            · rename_i hown
              rw [if_neg hown] at hj
              refine List.mem_append_left _ (List.mem_flatMap.mpr ?_)
              rcases List.mem_append.mp hj with hj | hj
              · obtain ⟨t, ht, hjt⟩ := List.mem_flatMap.mp hj
                exact ⟨t, ht, ih t ht (hb t ht) hjt hl⟩
              · split at hj
                · cases hj
                · rename_i hstays
                  obtain ⟨node', h', hmem⟩ := hl
                  rw [List.mem_singleton.mp hj, h] at h'
                  cases h'
                  obtain ⟨t, ht, rfl⟩ := List.mem_map.mp (hc ▸ hmem)
                  refine ⟨t, ht, (Tree.id_mem_fallen owns ((hb t ht).nodup_ids w)).mpr ?_⟩
                  simp only [Tree.stays_node, Bool.or_eq_true, List.any_eq_true, not_or, not_exists,
                    not_and, Bool.not_eq_true] at hstays
                  exact hstays.2 t ht

theorem Spans.fallen_live (owns : NodeId → Bool) (w : g.IsTree) {t : Tree} (h : g.Spans t) :
    ∀ id ∈ t.fallen owns, ∃ node, g.node? id = some node := fun _ hid =>
  h.exists_of_mem w (t.fallen_subset hid)

/-- What falls does so after all that is below it. -/
theorem Spans.fallen_order (owns : NodeId → Bool) (w : g.IsTree) {t : Tree} (h : g.Spans t) :
    (t.fallen owns).Pairwise fun a b => ¬ g.Below a b := by
  induction t with
  | node id below ih =>
      cases h with
      | node h hc hb =>
          rename_i node
          have hlink : ∀ t ∈ below, g.Links id t.id := fun t ht =>
            ⟨node, h, hc ▸ List.mem_map_of_mem ht⟩
          have hunder : ∀ t ∈ below, ∀ j ∈ t.fallen owns, g.Below t.id j := fun t ht j hj =>
            (hb t ht).mem_ids.mp (t.fallen_subset hj)
          have hsiblings : (below.map Tree.id).Nodup := hc ▸ w.nodup_children h
          have hflat : (below.flatMap fun t => t.fallen owns).Pairwise
              fun a b => ¬ g.Below a b := by
            refine List.pairwise_flatMap.mpr ⟨fun t ht => ih t ht (hb t ht), ?_⟩
            refine (List.pairwise_map.mp hsiblings).imp_of_mem ?_
            intro t u ht hu hne a ha b hb' hab
            exact hne (w.sibling_eq (hlink t ht) (hlink u hu) ((hunder t ht a ha).trans hab)
              (hunder u hu b hb'))
          rw [Tree.fallen]
          split
          · exact .nil
          · split
            · simpa using hflat
            · refine List.pairwise_append.mpr ⟨hflat, List.pairwise_singleton _ _, ?_⟩
              intro a ha b hb' hab
              obtain ⟨t, ht, hat⟩ := List.mem_flatMap.mp ha
              rw [List.mem_singleton.mp hb'] at hab
              exact w.not_below_of_links (hlink t ht) ((hunder t ht a hat).trans hab)

/-- The reports of the nodes that are taken out. -/
def removals (g : Graph ρ) (gone : List NodeId) : List Change :=
  gone.map fun id => .removed (g.segment id) id

theorem removals_without {gone more : List NodeId} (h : ∀ id ∈ more, id ∉ gone) :
    (g.without gone).removals more = g.removals more :=
  List.map_congr_left fun id hid => by rw [segment_without (h id hid)]

/-! ### What falls below a child -/

section

variable {id : NodeId} {node : Node ρ} {t : Tree}

theorem Spans.parent_not_mem_fallen (w : g.IsTree) (h : g.Spans t) (hl : g.Links id t.id) :
    id ∉ t.fallen owns := fun hid =>
  w.not_below_of_links hl (h.mem_ids.mp (t.fallen_subset hid))

/-- What is below another child stays where it is. -/
theorem Spans.sibling_not_mem_fallen (w : g.IsTree) (h : g.Spans t) (hl : g.Links id t.id)
    {c j : NodeId} (hc : g.Links id c) (hne : c ≠ t.id) (hcj : g.Below c j) :
    j ∉ t.fallen owns := fun hj =>
  hne (w.sibling_eq hc hl hcj (h.mem_ids.mp (t.fallen_subset hj)))

/-- A child stands at one place among its siblings. -/
theorem IsTree.ne_of_siblings (w : g.IsTree) (hn : g.node? id = some node)
    {kept rest : List NodeId} {child : NodeId} (hc : node.children = kept ++ child :: rest) :
    (∀ c ∈ kept, c ≠ child) ∧ ∀ c ∈ rest, c ≠ child := by
  have hnodup := w.nodup_children hn
  rw [hc] at hnodup
  obtain ⟨-, hrest, hdisj⟩ := List.nodup_append'.mp hnodup
  constructor
  · rintro c hk rfl
    exact hdisj hk List.mem_cons_self
  · rintro c hr rfl
    exact (List.nodup_cons.mp hrest).1 hr

/-- The children that are left when what falls below one of them is gone. -/
theorem Spans.children_left (w : g.IsTree) (h : g.Spans t) (hn : g.node? id = some node)
    {kept rest : List NodeId} (hc : node.children = kept ++ t.id :: rest) :
    (node.dropChildren (t.fallen owns)).children =
      (kept ++ if t.stays owns then [t.id] else []) ++ rest := by
  obtain ⟨hkept, hrest⟩ := w.ne_of_siblings hn hc
  have hlink : ∀ c ∈ node.children, g.Links id c := fun c hc => ⟨node, hn, hc⟩
  have hstay : ∀ c ∈ node.children, c ≠ t.id → decide (c ∉ t.fallen owns) = true := by
    intro c hmem hne
    have hleft : c ∉ t.fallen owns :=
      h.sibling_not_mem_fallen w (hlink _ (by simp [hc])) (hlink c hmem) hne .refl
    exact decide_eq_true hleft
  have htop : ([t.id].filter fun c => decide (c ∉ t.fallen owns)) =
      if t.stays owns then [t.id] else [] := by
    have := Tree.id_mem_fallen owns (h.nodup_ids w)
    cases hs : t.stays owns <;> simp [this, hs]
  have hk : (kept.filter fun c => decide (c ∉ t.fallen owns)) = kept :=
    List.filter_eq_self.mpr fun c hmem => hstay c (by simp [hc, hmem]) (hkept c hmem)
  have hr : (rest.filter fun c => decide (c ∉ t.fallen owns)) = rest :=
    List.filter_eq_self.mpr fun c hmem => hstay c (by simp [hc, hmem]) (hrest c hmem)
  show node.children.filter (fun c => decide (c ∉ t.fallen owns)) = _
  rw [hc, ← List.singleton_append, ← List.append_assoc, List.filter_append, List.filter_append,
    htop, hk, hr]

end

/-! ### Cleaning a subtree -/

/-- Cleaning the top of `t` does to every graph that `t` spans what `Tree.fallen` says. -/
def Cleans (ρ : Type) (owns : NodeId → Bool) (t : Tree) : Prop :=
  ∀ (g : Graph ρ) (fuel : Nat), g.IsTree → g.Counted → g.Spans t →
    (∀ id ∈ t.ids, g.ownsDriver id = owns id) → 2 * t.ids.length ≤ fuel →
    pruneSubtree fuel g t.id =
      .ok ⟨g.without (t.fallen owns), g.removals (t.fallen owns), t.stays owns⟩

/-- **Cleaning the children** of a node, from the first of `ts` on: those before it stay. -/
theorem pruneChildren_eq {ts : List Tree} (hts : ∀ t ∈ ts, Cleans ρ owns t) (g : Graph ρ)
    (fuel : Nat) (w : g.IsTree) (n : g.Counted) {id : NodeId} {node : Node ρ}
    {kept : List NodeId} (h : g.node? id = some node)
    (hc : node.children = kept ++ ts.map Tree.id) (hspans : ∀ t ∈ ts, g.Spans t)
    (howns : ∀ t ∈ ts, ∀ id ∈ t.ids, g.ownsDriver id = owns id)
    (hfuel : 2 * (ts.flatMap Tree.ids).length + 1 ≤ fuel) :
    pruneChildren fuel g id kept.length =
      .ok ⟨g.without (ts.flatMap fun t => t.fallen owns),
        g.removals (ts.flatMap fun t => t.fallen owns), ts.any fun t => t.stays owns⟩ := by
  induction ts generalizing g fuel node kept with
  | nil =>
      obtain ⟨fuel, rfl⟩ : ∃ k, fuel = k + 1 := ⟨fuel - 1, by omega⟩
      have hnone : (g.node? id).bind (·.children[kept.length]?) = none := by
        rw [h]
        simp [hc]
      rw [pruneChildren, hnone, List.flatMap_nil, without_nil]
      rfl
  | cons t ts ih =>
      obtain ⟨fuel, rfl⟩ : ∃ k, fuel = k + 1 := ⟨fuel - 1, by omega⟩
      rw [List.flatMap_cons, List.length_append] at hfuel
      have hpos : 0 < t.ids.length := List.length_pos_of_mem t.id_mem_ids
      have hst := hspans t List.mem_cons_self
      have hfirst := hts t List.mem_cons_self g fuel w n hst (howns t List.mem_cons_self) (by omega)
      have hsome : (g.node? id).bind (·.children[kept.length]?) = some t.id := by
        rw [h]
        simp [hc]
      -- nothing but the first child is in what falls below it
      have hlink : ∀ c ∈ node.children, g.Links id c := fun c hc => ⟨node, h, hc⟩
      have hlt : g.Links id t.id := hlink _ (by simp [hc])
      have hrest : ∀ u ∈ ts, ∀ j ∈ u.ids, j ∉ t.fallen owns := by
        intro u hu j hj
        have hmem : u.id ∈ ts.map Tree.id := List.mem_map_of_mem hu
        have hne := (w.ne_of_siblings h hc).2 u.id hmem
        exact hst.sibling_not_mem_fallen w hlt
          (hlink _ (hc ▸ List.mem_append_right _ (List.mem_cons_of_mem _ hmem))) hne
          ((hspans u (List.mem_cons_of_mem _ hu)).mem_ids.mp hj)
      have hlength : (if t.stays owns then kept.length + 1 else kept.length) =
          (kept ++ if t.stays owns then [t.id] else []).length := by
        cases t.stays owns <;> simp
      have hnode' : (g.without (t.fallen owns)).node? id =
          some (node.dropChildren (t.fallen owns)) := by
        rw [node?_without_of_not_mem (hst.parent_not_mem_fallen w hlt), h]
        rfl
      -- what has fallen below the first child does not change what falls below the others
      have hmore := ih (fun u hu => hts u (List.mem_cons_of_mem _ hu)) (g.without (t.fallen owns))
        fuel (w.without (hst.severable owns w))
        (n.without (Tree.nodup_fallen owns (hst.nodup_ids w)) (hst.fallen_live owns w)) hnode'
        (hst.children_left w h hc)
        (fun u hu => (hspans u (List.mem_cons_of_mem _ hu)).without (hrest u hu))
        (fun u hu j hj => by
          rw [ownsDriver_without (hrest u hu j hj)]
          exact howns u (List.mem_cons_of_mem _ hu) j hj)
        (by omega)
      have hreports : (g.without (t.fallen owns)).removals (ts.flatMap fun t => t.fallen owns) =
          g.removals (ts.flatMap fun t => t.fallen owns) :=
        removals_without fun j hj => by
          obtain ⟨u, hu, hju⟩ := List.mem_flatMap.mp hj
          exact hrest u hu j (u.fallen_subset hju)
      rw [pruneChildren, hsome]
      simp only [hfirst, bind, Except.bind, pure, Except.pure, hlength, hmore, without_without,
        hreports, List.flatMap_cons, List.any_cons]
      rw [removals, removals, removals, List.map_append]

/-- What falls below all children of a node takes its children along. -/
theorem severable_below (owns : NodeId → Bool) (w : g.IsTree) {below : List Tree}
    (hb : ∀ t ∈ below, g.Spans t) : g.Severable (below.flatMap fun t => t.fallen owns) where
  root hr := by
    obtain ⟨t, -, hrt⟩ := List.mem_flatMap.mp hr
    exact t.root_not_mem_fallen hrt
  down hj hl := by
    obtain ⟨t, ht, hjt⟩ := List.mem_flatMap.mp hj
    exact List.mem_flatMap.mpr ⟨t, ht, ((hb t ht).severable owns w).down hjt hl⟩

/-- The top goes last, when all that falls below it is gone. -/
theorem eraseNode_top (owns : NodeId → Bool) (w : g.IsTree) (n : g.Counted) {id : NodeId}
    {node : Node ρ} {below : List Tree} (hspans : g.Spans (.node id below))
    (h : g.node? id = some node) (hb : ∀ t ∈ below, g.Spans t) (howner : ¬ owns id = true)
    (hroot : id ≠ root) (hdriver : node.driver = none) :
    (g.without (below.flatMap fun t => t.fallen owns)).eraseNode id =
      .ok ⟨g.without ((below.flatMap fun t => t.fallen owns) ++ [id]), g.removals [id], ()⟩ := by
  have hnodup := hspans.nodup_ids w
  have hflat : (below.flatMap fun t => t.fallen owns).Nodup := by
    have hfallen := Tree.nodup_fallen owns hnodup
    rw [Tree.fallen, if_neg howner] at hfallen
    exact (List.nodup_append'.mp hfallen).1
  have hlive : ∀ j ∈ below.flatMap fun t => t.fallen owns, ∃ node, g.node? j = some node := by
    intro j hj
    obtain ⟨t, ht, hjt⟩ := List.mem_flatMap.mp hj
    exact (hb t ht).fallen_live owns w j hjt
  have hnode : (g.without (below.flatMap fun t => t.fallen owns)).node? id =
      some (node.dropChildren (below.flatMap fun t => t.fallen owns)) := by
    rw [node?_without_of_not_mem (Tree.id_not_mem_below hnodup), h]
    rfl
  have hsegment : g.segment id = node.segment := segment_of_node? h
  rw [eraseNode_eq (w.without (severable_below owns w hb)) (n.without hflat hlive) hnode hroot
    hdriver, without_without, removals, List.map_singleton, hsegment]
  rfl

/-- **Cleaning a subtree** takes its fallen nodes out and answers whether its top stays. -/
theorem pruneSubtree_eq (owns : NodeId → Bool) (t : Tree) : Cleans ρ owns t := by
  induction t with
  | node id below ih =>
      intro g fuel w n hspans howns hfuel
      have hspans' := hspans
      cases hspans' with
      | node h hc hb =>
          rename_i node
          rw [Tree.ids, List.length_cons] at hfuel
          obtain ⟨fuel, rfl⟩ : ∃ k, fuel = k + 1 := ⟨fuel - 1, by omega⟩
          have hmem : ∀ t ∈ below, ∀ j ∈ t.ids, j ∈ (Tree.node id below).ids := by
            intro t ht j hj
            rw [Tree.ids]
            exact List.mem_cons_of_mem _ (List.mem_flatMap.mpr ⟨t, ht, hj⟩)
          have hown : node.driver.isSome = owns id := by
            rw [← howns id (Tree.id_mem_ids _), ownsDriver_of_node? h]
          have hbelow := pruneChildren_eq ih g fuel w n h (show node.children = [] ++ _ from hc) hb
            (fun t ht j hj => howns j (hmem t ht j hj)) (by omega)
          rw [List.length_nil] at hbelow
          rw [Tree.id, pruneSubtree, h, Tree.fallen, Tree.stays_node]
          dsimp only
          rw [hown]
          by_cases howner : owns id = true
          · simp only [howner, if_true, without_nil, removals, List.map_nil, Bool.or_true,
              Bool.true_or]
          · simp only [howner, hbelow, bind, Except.bind, pure, Except.pure, Bool.or_false,
              Bool.false_eq_true, if_false]
            by_cases hroot : id = root
            · simp [hroot]
            · have hroot' : (id == root) = false := by simpa using hroot
              simp only [hroot, hroot', if_false, Bool.false_or]
              cases hany : below.any fun t => t.stays owns with
              | true => simp
              | false =>
                  have hdriver : node.driver = none :=
                    Option.not_isSome_iff_eq_none.mp (by rw [hown]; exact howner)
                  have htop := eraseNode_top owns w n hspans h hb howner hroot hdriver
                  simp only [Bool.false_eq_true, if_false, htop]
                  rw [removals, removals, removals, List.map_append]

/-- **Cleaning a node** of a graph that is a tree. -/
theorem prune_eq (w : g.IsTree) (n : g.Counted) {t : Tree} (h : g.Spans t) :
    g.prune t.id = .ok ⟨g.without (t.fallen g.ownsDriver), g.removals (t.fallen g.ownsDriver),
      t.stays g.ownsDriver⟩ :=
  pruneSubtree_eq g.ownsDriver t g g.depthBound w n h (fun _ _ => rfl) (by
    have := h.length_le w
    rw [depthBound]
    omega)

/-- A dead number cleans nothing. -/
theorem prune_dead {id : NodeId} (h : g.node? id = none) : g.prune id = .ok ⟨g, [], false⟩ := by
  rw [prune, depthBound, pruneSubtree, h]

end Graph

end VirtualFs.Mount
