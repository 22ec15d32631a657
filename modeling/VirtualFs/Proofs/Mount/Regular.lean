import VirtualFs.Proofs.Mount.Attachment

/-!
# Regular graphs

Between two operations a mount graph is `Regular`: well-linked, with its books in order, and
fruitful.  Attaching and detaching lead from regular graphs to regular graphs, and cleaning changes
nothing in one.

What a look-up can tell (`Holds`) changes at one place only: attaching adds a record at the
segments of a path (`Regular.attach`), and detaching removes the one at a node
(`Regular.detach`).
-/

namespace VirtualFs.Mount.Graph

variable {ρ : Type} {g h : Graph ρ}

/-- What is true of a mount graph between two operations. -/
structure Regular (g : Graph ρ) : Prop where
  linked : g.WellLinked
  numbered : g.Numbered
  fruitful : g.Fruitful

theorem regular_withLimit (limit : Nat) : (withLimit limit : Graph ρ).Regular :=
  ⟨wellLinked_withLimit limit, numbered_withLimit limit, fruitful_withLimit limit⟩

/-- Where no node has come, the graph stays fruitful. -/
theorem Grown.fruitful (k : g.Grown [] h) (hf : g.Fruitful) : h.Fruitful := by
  intro id node hn hne
  exact k.leads (hf (k.old_of_not_mem hn (by simp)) hne)

namespace Attached

variable {segments : List Segment} {record : ρ} {id : NodeId}

theorem regular (a : g.Attached segments record id h) (r : g.Regular) : h.Regular := by
  obtain ⟨added, k, node, hgrown, wk, nk, route, hn, hd, hadded, rfl⟩ := a.exists_grown
  refine ⟨wk.withDriver _ hn, nk.write hn _, fun {j node'} hj hne => ?_⟩
  have hleads : ∀ {j}, k.Leads j → (k.withDriver id node (some record)).Leads j := by
    rintro j ⟨i, hi, hown⟩
    refine ⟨i, by rwa [below_withDriver hn], ?_⟩
    rw [ownsDriver_withDriver hn]
    split
    · rfl
    · exact hown
  obtain ⟨old, hold, -⟩ := exists_of_withDriver hn hj
  by_cases hj : j ∈ added
  · refine ⟨id, by rw [below_withDriver hn]; exact hadded j hj, ?_⟩
    rw [ownsDriver_withDriver hn, if_pos rfl]
    rfl
  · exact hleads (hgrown.leads (r.fruitful (hgrown.old_of_not_mem hold hj) hne))

theorem limit_eq (a : g.Attached segments record id h) : h.limit = g.limit := by
  obtain ⟨added, k, node, hgrown, -, -, -, -, -, -, rfl⟩ := a.exists_grown
  exact hgrown.limit

/-- The new record is held at the segments. -/
theorem holds_iff (a : g.Attached segments record id h) {other : List Segment} {r : ρ} :
    h.Holds other r ↔ if other = segments then record = r else g.Holds other r := by
  obtain ⟨added, k, node, hgrown, wk, nk, route, hn, hd, hadded, rfl⟩ := a.exists_grown
  rw [holds_withDriver wk route hn, hgrown.holds_iff, Option.some.injEq]

/-- Nothing was held there before. -/
theorem not_held (a : g.Attached segments record id h) {r : ρ} : ¬ g.Holds segments r := by
  obtain ⟨added, k, node, hgrown, wk, nk, route, hn, hd, hadded, rfl⟩ := a.exists_grown
  rw [← hgrown.holds_iff]
  rintro ⟨j, node', route', hn', hd'⟩
  rw [route'.unique wk route, hn] at hn'
  cases hn'
  rw [hd] at hd'
  cases hd'

end Attached

namespace Regular

/-- **Attaching** to a regular graph. -/
theorem attach (r : g.Regular) (path : Path) (record : ρ) :
    (∃ h changes e, g.attach path record = .ok ⟨h, changes, .error e⟩ ∧ g.Grown [] h ∧
      h.Regular ∧ g.Refusal path e) ∨
    ∃ rest h changes id, Path.belowRoot? path = some rest ∧
      g.attach path record = .ok ⟨h, changes, .ok id⟩ ∧ h.Regular ∧
      g.Attached (Path.tokens rest) record id h := by
  rcases attach_cases r.linked r.numbered path record with
    ⟨h, changes, e, hattach, k, w, n, hr⟩ | ⟨rest, h, changes, id, hrest, hattach, ha⟩
  · exact .inl ⟨h, changes, e, hattach, k, ⟨w, n, k.fruitful r.fruitful⟩, hr⟩
  · exact .inr ⟨rest, h, changes, id, hrest, hattach, ha.regular r, ha⟩

/-- **Cleaning** a regular graph changes nothing, and every node stays. -/
theorem prune (r : g.Regular) (id : NodeId) :
    g.prune id = .ok ⟨g, [], (g.node? id).isSome⟩ := by
  cases hn : g.node? id with
  | none => exact prune_dead hn
  | some node =>
      refine prune_of_leads r.linked.isTree r.numbered.counted hn ?_ fun j hb hne => ?_
      · exact Decidable.or_iff_not_imp_left.mpr fun hne => r.fruitful hn hne
      · obtain ⟨below, hj, -⟩ := r.linked.offset_le_of_below hb hn
        refine r.fruitful hj fun e => hne ?_
        rw [e] at hb ⊢
        exact (r.linked.isTree.eq_root_of_below hb).symm

/-- **Detaching** a driver from the node that owns it takes out the nodes that then lead nowhere. -/
theorem detach [DecidableEq ρ] (r : g.Regular) {id : NodeId} {node : Node ρ} {record : ρ}
    (hn : g.node? id = some node) (hd : node.driver = some record) :
    ∃ gone changes, g.detach id record =
        .ok ⟨(g.withDriver id node none).without gone, changes, .ok record⟩ ∧
      (g.withDriver id node none).Barren gone ∧
      ((g.withDriver id node none).without gone).Regular ∧
      gone.Pairwise fun a b => g.Below b a := by
  have w := r.linked.withDriver none hn
  have n : (g.withDriver id node none).Numbered := r.numbered.write hn _
  have hid : (g.withDriver id node none).node? id = some { node with driver := none } := by
    rw [node?_withDriver hn, if_pos rfl]
  have hlive := n.live
  have hfuel : (g.withDriver id node none).live < (g.withDriver id node none).nodes.size + 1 := by
    omega
  obtain ⟨gone, hprune, hgone, hfruit, horder⟩ :=
    pruneUpward_eq w.isTree n.counted hid hfuel fun {j node'} hj hne hb => by
      obtain ⟨old, hold, -⟩ := exists_of_withDriver hn hj
      obtain ⟨i, hi, hown⟩ := r.fruitful hold hne
      rw [below_withDriver hn] at hb
      refine ⟨i, by rwa [below_withDriver hn], ?_⟩
      have hne : i ≠ id := fun e => hb (e ▸ hi)
      rw [ownsDriver_withDriver hn, if_neg hne]
      exact hown
  refine ⟨gone, (g.withDriver id node none).removals gone, ?_, hgone,
    ⟨w.without hgone.severable, n.without hgone.nodup hgone.live, hfruit⟩,
    by rwa [below_withDriver hn] at horder⟩
  rw [Graph.detach, hn]
  dsimp only
  rw [if_pos hd]
  simp only [show g.write id (some { node with driver := none }) = g.withDriver id node none
    from rfl, hprune, bind, Except.bind, pure, Except.pure]

/-- After a detachment nothing is held at the route of the node, and elsewhere what was before. -/
theorem holds_detached (r : g.Regular) {id : NodeId} {node : Node ρ} {segments : List Segment}
    (route : g.Route root segments id) (hn : g.node? id = some node) {gone : List NodeId}
    (hgone : (g.withDriver id node none).Barren gone) {other : List Segment} {record : ρ} :
    ((g.withDriver id node none).without gone).Holds other record ↔
      other ≠ segments ∧ g.Holds other record := by
  rw [hgone.severable.holds_iff fun j hj => ?_, holds_withDriver r.linked route hn]
  · by_cases he : other = segments <;> simp [he]
  · exact Bool.eq_false_iff.mpr fun hown => hgone.nowhere j hj ⟨j, .refl, hown⟩

end Regular

/-- A driver that a node does not own is not detached from it. -/
theorem detach_notFound [DecidableEq ρ] {id : NodeId} {record : ρ}
    (h : ∀ node, g.node? id = some node → node.driver ≠ some record) :
    g.detach id record = .ok ⟨g, [], .error .notFound⟩ := by
  rw [detach]
  split
  · rfl
  · rename_i node hn
    exact if_neg (h node hn)

end VirtualFs.Mount.Graph
