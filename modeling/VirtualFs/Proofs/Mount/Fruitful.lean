import VirtualFs.Proofs.Mount.Pruning

/-!
# What leads to a driver

A node leads to a driver if it or a node below it owns one, and a graph is `Fruitful` if all its
nodes but the root do.

* `Spans.stays_iff`: cleaning leaves a node exactly if it leads to a driver, or is the root.
* `prune_of_leads`: cleaning changes nothing where all nodes lead to a driver.
* `pruneUpward_eq`: if only a node and its ancestors may lead nowhere, cleaning upwards from the
  node takes out exactly those that do, from below, and leaves a fruitful graph.
-/

namespace VirtualFs.Mount.Graph

variable {ρ : Type} {g : Graph ρ}

/-- A driver is owned at or below the node. -/
def Leads (g : Graph ρ) (id : NodeId) : Prop :=
  ∃ j, g.Below id j ∧ g.ownsDriver j = true

/-- Every node but the root leads to a driver. -/
def Fruitful (g : Graph ρ) : Prop :=
  ∀ {id node}, g.node? id = some node → id ≠ root → g.Leads id

theorem Leads.of_below {top id : NodeId} (h : g.Leads id) (hb : g.Below top id) : g.Leads top := by
  obtain ⟨j, hj, hown⟩ := h
  exact ⟨j, hb.trans hj, hown⟩

theorem fruitful_withLimit (limit : Nat) : (withLimit limit : Graph ρ).Fruitful := by
  intro id node h hne
  rw [node?_withLimit, if_neg hne] at h
  cases h

/-! ### What cleaning leaves -/

/-- **What stays** is what leads to a driver, and the root. -/
theorem Spans.stays_iff (w : g.IsTree) {t : Tree} (h : g.Spans t) :
    t.stays g.ownsDriver = true ↔ t.id = root ∨ g.Leads t.id := by
  induction t with
  | node id below ih =>
      cases h with
      | node h hc hb =>
          rename_i node
          have hlink : ∀ t ∈ below, g.Links id t.id := fun t ht =>
            ⟨node, h, hc ▸ List.mem_map_of_mem ht⟩
          rw [Tree.stays_node]
          simp only [Bool.or_eq_true, beq_iff_eq, List.any_eq_true, Tree.id]
          constructor
          · rintro ((hroot | hown) | ⟨t, ht, hstays⟩)
            · exact .inl hroot
            · exact .inr ⟨id, .refl, hown⟩
            · rcases (ih t ht (hb t ht)).mp hstays with hroot | hleads
              · exact absurd (hroot ▸ hlink t ht) w.root_not_child
              · exact .inr (hleads.of_below (.single (hlink t ht)))
          · rintro (hroot | ⟨j, hj, hown⟩)
            · exact .inl (.inl hroot)
            · rcases Relation.ReflTransGen.cases_head hj with rfl | ⟨c, ⟨node', h', hmem⟩, hcj⟩
              · exact .inl (.inr hown)
              · rw [h] at h'
                cases h'
                obtain ⟨t, ht, rfl⟩ := List.mem_map.mp (hc ▸ hmem)
                exact .inr ⟨t, ht, (ih t ht (hb t ht)).mpr (.inr ⟨j, hcj, hown⟩)⟩

/-- What goes leads nowhere. -/
theorem Spans.not_leads (w : g.IsTree) {t : Tree} (h : g.Spans t) {j : NodeId}
    (hj : j ∈ t.fallen g.ownsDriver) : ¬ g.Leads j := by
  induction t with
  | node id below ih =>
      rw [Tree.fallen] at hj
      split at hj
      · cases hj
      · cases hstays : (Tree.node id below).stays g.ownsDriver with
        | true =>
            rw [hstays, if_pos rfl, List.append_nil] at hj
            obtain ⟨t, ht, hjt⟩ := List.mem_flatMap.mp hj
            cases h with
            | node _ _ hb => exact ih t ht (hb t ht) hjt
        | false =>
            rw [hstays, if_neg (by simp)] at hj
            rcases List.mem_append.mp hj with hj | hj
            · obtain ⟨t, ht, hjt⟩ := List.mem_flatMap.mp hj
              cases h with
              | node _ _ hb => exact ih t ht (hb t ht) hjt
            · rw [List.mem_singleton.mp hj]
              intro hleads
              rw [(h.stays_iff w).mpr (.inr hleads)] at hstays
              cases hstays

/-- Where nobody owns a driver, all go. -/
theorem mem_fallen_of_barren {owns : NodeId → Bool} {t : Tree}
    (h : ∀ j ∈ t.ids, j ≠ root ∧ owns j = false) {j : NodeId} :
    j ∈ t.fallen owns ↔ j ∈ t.ids := by
  refine ⟨fun hj => t.fallen_subset hj, fun hj => ?_⟩
  have hstays : ∀ t : Tree, (∀ j ∈ t.ids, j ≠ root ∧ owns j = false) → t.stays owns = false := by
    intro t
    induction t with
    | node id below ih =>
        intro h
        rw [Tree.ids] at h
        obtain ⟨hne, hown⟩ := h id List.mem_cons_self
        have hbelow : (below.any fun t => t.stays owns) = false :=
          List.any_eq_false.mpr fun t ht => by
            rw [ih t ht fun j hj =>
              h j (List.mem_cons_of_mem _ (List.mem_flatMap.mpr ⟨t, ht, hj⟩))]
            exact Bool.false_ne_true
        rw [Tree.stays_node, hbelow, hown]
        simpa using hne
  have hall := hstays t h
  induction t with
  | node id below ih =>
      have hbelow : ∀ t ∈ below, ∀ j ∈ t.ids, j ∈ (Tree.node id below).ids := by
        intro t ht j hj
        rw [Tree.ids]
        exact List.mem_cons_of_mem _ (List.mem_flatMap.mpr ⟨t, ht, hj⟩)
      have hown := (h id (Tree.id_mem_ids _)).2
      rw [Tree.fallen, hown, hall]
      rw [Tree.ids] at hj
      rcases List.mem_cons.mp hj with rfl | hj
      · simp
      · obtain ⟨t, ht, hjt⟩ := List.mem_flatMap.mp hj
        have ht' : ∀ j ∈ t.ids, j ≠ root ∧ owns j = false := fun j hj => h j (hbelow t ht j hj)
        exact List.mem_append_left _
          (List.mem_flatMap.mpr ⟨t, ht, ih t ht ht' hjt (hstays t ht')⟩)

/-- **Cleaning changes nothing** where every node leads to a driver. -/
theorem prune_of_leads (w : g.IsTree) (n : g.Counted) {id : NodeId} {node : Node ρ}
    (h : g.node? id = some node) (hid : id = root ∨ g.Leads id)
    (hleads : ∀ j, g.Below id j → j ≠ id → g.Leads j) :
    g.prune id = .ok ⟨g, [], true⟩ := by
  obtain ⟨t, rfl, hspans⟩ := w.exists_spans h
  have hnil : t.fallen g.ownsDriver = [] := by
    refine List.eq_nil_iff_forall_not_mem.mpr ?_
    intro j hj
    have hbelow := hspans.mem_ids.mp (t.fallen_subset hj)
    by_cases hjt : j = t.id
    · rcases hid with hroot | hid
      · exact t.root_not_mem_fallen (hroot ▸ hjt ▸ hj)
      · exact hspans.not_leads w hj (hjt ▸ hid)
    · exact hspans.not_leads w hj (hleads j hbelow hjt)
  rw [prune_eq w n hspans, hnil, without_nil, (hspans.stays_iff w).mpr hid]
  rfl

/-- **A node that leads nowhere goes alone** if all below it lead to a driver, which is to say that
there are none. -/
theorem prune_of_not_leads (w : g.IsTree) (n : g.Counted) {id : NodeId} {node : Node ρ}
    (h : g.node? id = some node) (hroot : id ≠ root) (hid : ¬ g.Leads id)
    (hleads : ∀ j, g.Below id j → j ≠ id → g.Leads j) :
    g.prune id = .ok ⟨g.without [id], g.removals [id], false⟩ := by
  obtain ⟨t, rfl, hspans⟩ := w.exists_spans h
  have hstays : t.stays g.ownsDriver = false :=
    Bool.eq_false_iff.mpr fun hstays => ((hspans.stays_iff w).mp hstays).elim hroot hid
  have hall : ∀ j ∈ t.fallen g.ownsDriver, j = t.id := by
    intro j hj
    by_contra hne
    exact hspans.not_leads w hj (hleads j (hspans.mem_ids.mp (t.fallen_subset hj)) hne)
  have hfallen : t.fallen g.ownsDriver = [t.id] := by
    have hnodup := Tree.nodup_fallen g.ownsDriver (hspans.nodup_ids w)
    have hmem := (Tree.id_mem_fallen _ (hspans.nodup_ids w)).mpr hstays
    refine List.perm_singleton.mp ((List.perm_ext_iff_of_nodup hnodup (by simp)).mpr fun j => ?_)
    rw [List.mem_singleton]
    exact ⟨hall j, fun e => e ▸ hmem⟩
  rw [prune_eq w n hspans, hfallen, hstays]

/-! ### Cleaning upwards -/

theorem below_of_without {gone : List NodeId} {a b : NodeId} (h : (g.without gone).Below a b) :
    g.Below a b :=
  Relation.ReflTransGen.mono (fun _ _ => links_of_without) _ _ h

theorem links_without {gone : List NodeId} {a b : NodeId} (h : g.Links a b) (ha : a ∉ gone)
    (hb : b ∉ gone) : (g.without gone).Links a b := by
  obtain ⟨node, hnode, hmem⟩ := h
  refine ⟨node.dropChildren gone, by rw [node?_without_of_not_mem ha, hnode]; rfl, ?_⟩
  exact List.mem_filter.mpr ⟨hmem, by simpa using hb⟩

/-- All that is below goes with what goes. -/
theorem Severable.mem_of_below {gone : List NodeId} (hs : g.Severable gone) {a b : NodeId}
    (h : g.Below a b) (ha : a ∈ gone) : b ∈ gone := by
  induction h with
  | refl => exact ha
  | tail _ hl ih => exact hs.down ih hl

/-- What stays of a severable graph hangs together as before. -/
theorem Severable.below_without {gone : List NodeId} (hs : g.Severable gone) {a b : NodeId}
    (h : g.Below a b) (hb : b ∉ gone) : (g.without gone).Below a b := by
  induction h with
  | refl => exact .refl
  | tail _ hl ih =>
      have hmid := fun hgone => hb (hs.down hgone hl)
      exact (ih hmid).tail (links_without hl hmid hb)

/-- Nodes that lead nowhere and can be taken out. -/
structure Barren (g : Graph ρ) (gone : List NodeId) : Prop where
  severable : g.Severable gone
  nodup : gone.Nodup
  live : ∀ id ∈ gone, ∃ node, g.node? id = some node
  nowhere : ∀ id ∈ gone, ¬ g.Leads id

theorem barren_nil : g.Barren [] where
  severable := ⟨by simp, fun hj => by cases hj⟩
  nodup := .nil
  live := by simp
  nowhere := by simp

/-- Taking out what leads nowhere takes no driver from anyone. -/
theorem Barren.leads_without {gone : List NodeId} (hb : g.Barren gone) {id : NodeId}
    (h : g.Leads id) : (g.without gone).Leads id := by
  obtain ⟨j, hj, hown⟩ := h
  have hjg : j ∉ gone := fun hjg => hb.nowhere j hjg ⟨j, .refl, hown⟩
  exact ⟨j, hb.severable.below_without hj hjg, by rw [ownsDriver_without hjg, hown]⟩

theorem Barren.not_mem {a b : List NodeId} (hb : (g.without a).Barren b) :
    ∀ j ∈ b, j ∉ a := by
  intro j hj
  obtain ⟨_, hj⟩ := hb.live j hj
  exact (node?_of_without hj).1

/-- Barren nodes may be taken out in two goes. -/
theorem Barren.append {a b : List NodeId} (ha : g.Barren a) (hb : (g.without a).Barren b) :
    g.Barren (a ++ b) where
  severable := by
    refine ⟨fun hr => ?_, fun {i j} hi hl => ?_⟩
    · rcases List.mem_append.mp hr with hr | hr
      · exact ha.severable.root hr
      · exact hb.severable.root hr
    · rcases List.mem_append.mp hi with hi | hi
      · exact List.mem_append_left _ (ha.severable.down hi hl)
      · by_cases hj : j ∈ a
        · exact List.mem_append_left _ hj
        · exact List.mem_append_right _
            (hb.severable.down hi (links_without hl (hb.not_mem i hi) hj))
  nodup := List.nodup_append'.mpr ⟨ha.nodup, hb.nodup, fun j h₁ h₂ => hb.not_mem j h₂ h₁⟩
  live j hj := by
    rcases List.mem_append.mp hj with hj | hj
    · exact ha.live j hj
    · obtain ⟨_, hj⟩ := hb.live j hj
      obtain ⟨-, node, hj, -⟩ := node?_of_without hj
      exact ⟨node, hj⟩
  nowhere j hj hleads := by
    rcases List.mem_append.mp hj with hj | hj
    · exact ha.nowhere j hj hleads
    · exact hb.nowhere j hj (ha.leads_without hleads)

/-- A node that leads nowhere is barren on its own, if all that is below it leads somewhere: then
there is nothing below it. -/
theorem barren_singleton (w : g.IsTree) {id : NodeId} {node : Node ρ}
    (h : g.node? id = some node) (hroot : id ≠ root) (hid : ¬ g.Leads id)
    (hbelow : ∀ j, g.Below id j → j ≠ id → g.Leads j) : g.Barren [id] where
  severable := by
    refine ⟨fun hr => hroot (List.mem_singleton.mp hr).symm, fun {a b} ha hl => ?_⟩
    rw [List.mem_singleton.mp ha] at hl
    have hne : b ≠ id := fun e => w.not_below_of_links hl (e ▸ .refl)
    exact absurd ((hbelow b (.single hl) hne).of_below (.single hl)) hid
  nodup := by simp
  live := by simp [h]
  nowhere := by simpa using hid

/-- What is not above the parent of a node that has gone was not above the node. -/
theorem Severable.not_below_of_links (w : g.IsTree) {parent id j : NodeId}
    (hs : g.Severable [id]) (hlink : g.Links parent id) (hj : j ≠ id)
    (h : ¬ (g.without [id]).Below j parent) : ¬ g.Below j id := by
  intro hjb
  rcases Relation.ReflTransGen.cases_tail hjb with he | ⟨c, hjc, hc⟩
  · exact hj he.symm
  · rw [w.parent_unique hc hlink] at hjc
    refine h (hs.below_without hjc fun hp => ?_)
    rw [List.mem_singleton.mp hp] at hlink
    exact w.not_below_of_links hlink .refl

/-- **Cleaning upwards** from a node, if only it and its ancestors may lead nowhere. -/
theorem pruneUpward_eq (w : g.IsTree) (n : g.Counted) {id : NodeId} {node : Node ρ}
    (h : g.node? id = some node) {fuel : Nat} (hfuel : g.live < fuel)
    (hleads : ∀ {j node}, g.node? j = some node → j ≠ root → ¬ g.Below j id → g.Leads j) :
    ∃ gone, g.pruneUpward fuel id = .ok ⟨g.without gone, g.removals gone, ()⟩ ∧
      g.Barren gone ∧ (g.without gone).Fruitful ∧ gone.Pairwise fun a b => g.Below b a := by
  induction fuel generalizing g id node with
  | zero => exact absurd hfuel (Nat.not_lt_zero _)
  | succ fuel ih =>
      have hnone : g.Fruitful → ∃ gone, (.ok ⟨g, [], ()⟩ : Checked (Edit ρ Unit)) =
          .ok ⟨g.without gone, g.removals gone, ()⟩ ∧ g.Barren gone ∧ (g.without gone).Fruitful ∧
            gone.Pairwise fun a b => g.Below b a :=
        fun hfruit => ⟨[], by rw [without_nil]; rfl, barren_nil, by rwa [without_nil], .nil⟩
      by_cases hroot : id = root
      · rw [pruneUpward, if_pos hroot]
        refine hnone fun {j node} hj hne => hleads hj hne fun hb => hne ?_
        rw [hroot] at hb
        exact w.eq_root_of_below hb
      · -- all that is strictly below leads somewhere, for it is not above
        have hbelow : ∀ j, g.Below id j → j ≠ id → g.Leads j := by
          intro j hb hne
          obtain ⟨below, hj⟩ := w.exists_of_below hb h
          refine hleads hj (fun e => ?_) fun hj => hne (w.below_antisymm hj hb)
          rw [e] at hb hne
          exact hne (w.eq_root_of_below hb).symm
        obtain ⟨parent, above, hparent, habove, hmem⟩ := w.up h hroot
        have hlink : g.Links parent id := ⟨above, habove, hmem⟩
        rw [pruneUpward, if_neg hroot, h]
        by_cases hid : g.Leads id
        · rw [prune_of_leads w n h (.inr hid) hbelow]
          refine hnone fun {j node} hj hne => ?_
          by_cases hjid : g.Below j id
          · exact hid.of_below hjid
          · exact hleads hj hne hjid
        · have hb := barren_singleton w h hroot hid hbelow
          have hone := n.length_le_live hb.nodup hb.live
          have hpid : parent ∉ [id] := by
            intro hp
            rw [List.mem_singleton.mp hp] at hlink
            exact w.not_below_of_links hlink .refl
          have habove' : (g.without [id]).node? parent = some (above.dropChildren [id]) := by
            rw [node?_without_of_not_mem hpid, habove]
            rfl
          -- once the node has gone, only its parent and what is above that may lead nowhere
          obtain ⟨gone, hrec, hgone, hfruit, horder⟩ := ih (w.without hb.severable)
            (n.without hb.nodup hb.live) habove'
            (by simp only [Graph.without, List.length_singleton] at hone ⊢; omega)
            (fun {j node'} hj hne hjp => by
              obtain ⟨hjid, node, hnode, -⟩ := node?_of_without hj
              exact hb.leads_without (hleads hnode hne (hb.severable.not_below_of_links w hlink
                (fun e => hjid (List.mem_singleton.mpr e)) hjp)))
          -- all that goes leads nowhere, and so is above the node
          have habove : ∀ j ∈ gone, g.Below j id := fun j hj => by
            obtain ⟨_, hlive⟩ := hgone.live j hj
            obtain ⟨-, node, hnode, -⟩ := node?_of_without hlive
            by_contra hjid
            exact hgone.nowhere j hj (hb.leads_without
              (hleads hnode (fun e => hgone.severable.root (e ▸ hj)) hjid))
          refine ⟨[id] ++ gone, ?_, hb.append hgone, by rwa [← without_without],
            .cons habove (horder.imp below_of_without)⟩
          rw [prune_of_not_leads w n h hroot hid hbelow]
          simp only [Option.bind_some, hparent, bind, Except.bind, pure, Except.pure, hrec,
            without_without, removals_without hgone.not_mem]
          rw [removals, removals, removals, List.map_append]

end VirtualFs.Mount.Graph
