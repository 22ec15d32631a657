import VirtualFs.Proofs.Mount.Operations

/-!
# What detaching takes away

Detaching a driver takes out the nodes that only it was keeping: those on the way from its node up
to the root that lead to no other driver.  The root is not among them, and the way up ends at the
first node that still leads somewhere (`Regular.mem_gone_iff`).  Every other node is what it was,
but for the driver itself and the children that are gone.

* `find_driver_detached`: no other driver stops being found.
* `operate_detach`: what detaching comes to, after any operations.
-/

namespace VirtualFs.Mount.Graph

variable {ρ : Type} {g h : Graph ρ} {id : NodeId} {node : Node ρ} {gone : List NodeId}

/-- `h` is `g` without the driver of `id`, and without the nodes `gone` that it was keeping. -/
structure Detached (g : Graph ρ) (id : NodeId) (gone : List NodeId) (h : Graph ρ) : Prop where
  /-- What goes is on the way from the node up to the root, and leads to no other driver. -/
  mem_iff : ∀ j, j ∈ gone ↔ j ≠ 0 ∧ Relation.ReflTransGen g.Links j id ∧
    ∀ k, Relation.ReflTransGen g.Links j k → g.ownsDriver k = true → k = id
  nodup : gone.Nodup
  lived : ∀ j ∈ gone, (g.node? j).isSome = true
  /-- The other nodes keep their numbers, and all but the driver and the children that go. -/
  node : ∀ j, h.node? j = if j ∈ gone then none else (g.node? j).map fun node =>
    { node with
      driver := if j = id then none else node.driver
      children := node.children.filter (· ∉ gone) }
  live : h.live + gone.length = g.live
  limit : h.limit = g.limit
  /-- No other mount point stops being found. -/
  found : ∀ path j, j ≠ id → g.ownsDriver j = true → g.find path .exact = some j →
    h.find path .exact = some j
  /-- No path that another driver serves loses it. -/
  served : ∀ path j, j ≠ id → g.find path .driver = some j → h.find path .driver = some j

section

variable (hn : g.node? id = some node)

include hn

theorem ownsDriver_withDriver_none {j : NodeId} :
    (g.withDriver id node none).ownsDriver j = true ↔ j ≠ id ∧ g.ownsDriver j = true := by
  rw [ownsDriver_withDriver hn]
  by_cases hj : j = id <;> simp [hj]

/-- Without the driver of a node, those nodes lead nowhere that led to no other. -/
theorem not_leads_withDriver_none {j : NodeId} : ¬ (g.withDriver id node none).Leads j ↔
    ∀ k, g.Below j k → g.ownsDriver k = true → k = id := by
  rw [Leads, below_withDriver hn, not_exists]
  refine forall_congr' fun k => ?_
  rw [ownsDriver_withDriver_none hn, not_and, not_and]
  exact imp_congr_right fun _ => ⟨fun h hown => by_contra fun hne => h hne hown,
    fun h hne hown => hne (h hown)⟩

/-- **What goes** is above the node and leads to no other driver. -/
theorem Regular.mem_gone_iff (r : g.Regular) (hb : (g.withDriver id node none).Barren gone)
    (rh : ((g.withDriver id node none).without gone).Regular) (j : NodeId) :
    j ∈ gone ↔ j ≠ root ∧ g.Below j id ∧ ∀ k, g.Below j k → g.ownsDriver k = true → k = id := by
  constructor
  · intro hj
    have hnowhere := (not_leads_withDriver_none hn).mp (hb.nowhere j hj)
    obtain ⟨_, hlive⟩ := hb.live j hj
    obtain ⟨old, hold, -⟩ := exists_of_withDriver hn hlive
    have hne : j ≠ root := fun e => hb.severable.root (e ▸ hj)
    -- it led to a driver before, which can only have been that of the node
    obtain ⟨k, hjk, hown⟩ := r.fruitful hold hne
    exact ⟨hne, hnowhere k hjk hown ▸ hjk, hnowhere⟩
  · rintro ⟨hne, hbelow, hnowhere⟩
    by_contra hj
    obtain ⟨old, hold⟩ : ∃ old, g.node? j = some old := by
      rcases Relation.ReflTransGen.cases_head hbelow with rfl | ⟨c, ⟨old, hold, -⟩, -⟩
      · exact ⟨node, hn⟩
      · exact ⟨old, hold⟩
    -- it would be left, and lead to a driver
    obtain ⟨d, hlive⟩ := exists_withDriver none hn hold
    have hleft := node?_without_of_not_mem (g := g.withDriver id node none) hj
    rw [hlive, Option.map_some] at hleft
    obtain ⟨k, hjk, hown⟩ := rh.fruitful hleft hne
    have hk : k ∉ gone := fun hk => by
      rw [ownsDriver, node?_without, if_pos hk] at hown
      cases hown
    rw [ownsDriver_without hk] at hown
    exact (not_leads_withDriver_none hn).mpr hnowhere ⟨k, below_of_without hjk, hown⟩

theorem route_detached_iff (hb : (g.withDriver id node none).Barren gone) {a j : NodeId}
    {segments : List Segment} :
    ((g.withDriver id node none).without gone).Route a segments j ↔
      g.Route a segments j ∧ j ∉ gone := by
  rw [hb.severable.route_iff, route_withDriver hn]

/-- No driver goes but that of the node. -/
theorem ownsDriver_detached_iff (hb : (g.withDriver id node none).Barren gone) {j : NodeId} :
    ((g.withDriver id node none).without gone).ownsDriver j = true ↔
      j ≠ id ∧ g.ownsDriver j = true := by
  rw [← ownsDriver_withDriver_none hn]
  by_cases hj : j ∈ gone
  · have hidle := hb.nowhere j hj
    rw [ownsDriver, node?_without, if_pos hj]
    exact ⟨(fun h => by cases h), fun hown => absurd ⟨j, .refl, hown⟩ hidle⟩
  · rw [ownsDriver_without hj]

theorem not_mem_gone (hb : (g.withDriver id node none).Barren gone) {j : NodeId} (hne : j ≠ id)
    (hown : g.ownsDriver j = true) : j ∉ gone := fun hj =>
  hb.nowhere j hj ⟨j, .refl, (ownsDriver_withDriver_none hn).mpr ⟨hne, hown⟩⟩

/-- **Another mount point** is found as before. -/
theorem find_exact_detached (w : g.WellLinked) (hb : (g.withDriver id node none).Barren gone)
    (wh : ((g.withDriver id node none).without gone).WellLinked) {path : Path} {j : NodeId}
    (hne : j ≠ id) (hown : g.ownsDriver j = true) (hfind : g.find path .exact = some j) :
    ((g.withDriver id node none).without gone).find path .exact = some j := by
  obtain ⟨top, htop, -⟩ := w.root
  obtain ⟨toph, htoph, -⟩ := wh.root
  rw [find] at hfind ⊢
  cases hrest : Path.belowRoot? path with
  | none =>
      rw [hrest] at hfind
      cases hfind
  | some rest =>
      rw [hrest] at hfind
      dsimp only at hfind ⊢
      rw [walk_exact w htop] at hfind
      rw [walk_exact wh htoph, route_detached_iff hn hb]
      exact ⟨hfind, not_mem_gone hn hb hne hown⟩

/-- **Another driver** serves what it served before. -/
theorem find_driver_detached (w : g.WellLinked) (hb : (g.withDriver id node none).Barren gone)
    (wh : ((g.withDriver id node none).without gone).WellLinked) {path : Path} {j : NodeId}
    (hne : j ≠ id) (hfind : g.find path .driver = some j) :
    ((g.withDriver id node none).without gone).find path .driver = some j := by
  obtain ⟨top, htop, -⟩ := w.root
  obtain ⟨toph, htoph, -⟩ := wh.root
  rw [find] at hfind ⊢
  cases hrest : Path.belowRoot? path with
  | none =>
      rw [hrest] at hfind
      cases hfind
  | some rest =>
      rw [hrest] at hfind
      have hlast := walk_driver w htop none rest
      rw [show g.walk .driver root none rest = some j from hfind] at hlast
      have hlast' : ((g.withDriver id node none).without gone).LastOwner root (Path.tokens rest)
          none (some j) := by
        rcases hlast with ⟨front, back, k, hsplit, hk, route, hown, hlater⟩ | ⟨hnone, -⟩
        · cases hk
          refine .inl ⟨front, back, j, hsplit, rfl, (route_detached_iff hn hb).mpr
            ⟨route, not_mem_gone hn hb hne hown⟩, (ownsDriver_detached_iff hn hb).mpr ⟨hne, hown⟩,
            fun more k hmore hpre r => ?_⟩
          rw [Bool.eq_false_iff, ne_eq, ownsDriver_detached_iff hn hb,
            hlater more k hmore hpre ((route_detached_iff hn hb).mp r).1]
          simp
        · cases hnone
      exact (walk_driver wh htoph none rest).unique wh hlast'

end

/-- **Detaching** takes away the driver and what it was keeping, and nothing else. -/
theorem Regular.detached [DecidableEq ρ] (r : g.Regular) (hn : g.node? id = some node) {record : ρ}
    (hd : node.driver = some record) : ∃ gone h changes,
      g.detach id record = .ok ⟨h, changes, .ok record⟩ ∧ g.Detached id gone h := by
  obtain ⟨gone, changes, hdetach, hb, rh, -⟩ := r.detach hn hd
  have n : (g.withDriver id node none).Numbered := r.numbered.write hn _
  refine ⟨gone, _, changes, hdetach, r.mem_gone_iff hn hb rh, hb.nodup, fun j hj => ?_,
    fun j => ?_, ?_, rfl, fun path j => find_exact_detached hn r.linked hb rh.linked,
    fun path j => find_driver_detached hn r.linked hb rh.linked⟩
  · obtain ⟨_, hlive⟩ := hb.live j hj
    obtain ⟨old, hold, -⟩ := exists_of_withDriver hn hlive
    rw [hold]
    rfl
  · rw [node?_without, node?_withDriver hn]
    refine if_congr Iff.rfl rfl ?_
    by_cases hj : j = id
    · rw [if_pos hj, hj, hn]
      simp [Node.dropChildren]
    · rw [if_neg hj]
      cases g.node? j <;> simp [hj, Node.dropChildren]
  · have hle := n.counted.length_le_live hb.nodup hb.live
    exact Nat.sub_add_cancel hle

/-- **Any node and any record**, after any operations: a driver is detached exactly from the node
that owns it, which takes away the nodes that only it was keeping; otherwise nothing is found and
nothing changes. -/
theorem operate_detach [DecidableEq ρ] (limit : Nat) (operations : List (Operation ρ))
    (id : NodeId) (record : ρ) : ∃ g, operate limit operations = .ok g ∧
      if (g.node? id).bind (·.driver) = some record then
        ∃ gone h changes, g.detach id record = .ok ⟨h, changes, .ok record⟩ ∧ g.Detached id gone h
      else g.detach id record = .ok ⟨g, [], .error .notFound⟩ := by
  have hstart : (withLimit limit : Graph ρ).Regular := regular_withLimit limit
  obtain ⟨g, hrun, r, -⟩ := hstart.foldlM_operation operations
  refine ⟨g, hrun, ?_⟩
  split
  · rename_i howner
    obtain ⟨node, hn, hd⟩ := Option.bind_eq_some_iff.mp howner
    exact r.detached hn hd
  · rename_i hother
    exact detach_notFound fun node hn hd => hother (Option.bind_eq_some_iff.mpr ⟨node, hn, hd⟩)

end VirtualFs.Mount.Graph
