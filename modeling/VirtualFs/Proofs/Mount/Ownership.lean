import VirtualFs.Proofs.Mount.Insertion
import VirtualFs.Proofs.Mount.Route

/-!
# Giving and taking drivers

Writing a driver into a node, or taking it out, leaves all links as they are.  `Holds g segments r`
says which record is found at the end of a route: that is all that a look-up can tell, and neither
growing nor taking out idle nodes changes it.

* `holds_withDriver`: a new driver is held at its node, and elsewhere nothing changes.
* `Grown.holds_iff`, `Severable.holds_iff`: what nodes without drivers do not change.
-/

namespace VirtualFs.Mount.Graph

variable {ρ : Type} {g h : Graph ρ} {id : NodeId} {node : Node ρ} {driver : Option ρ}

/-- The graph with another driver, or none, in `node`, which is number `id`. -/
def withDriver (g : Graph ρ) (id : NodeId) (node : Node ρ) (driver : Option ρ) : Graph ρ :=
  g.write id (some { node with driver := driver })

theorem node?_withDriver (hn : g.node? id = some node) (j : NodeId) :
    (g.withDriver id node driver).node? j =
      if j = id then some { node with driver := driver } else g.node? j :=
  node?_write_of_node? hn j _

/-- Every node keeps its place. -/
theorem exists_withDriver (driver : Option ρ) (hn : g.node? id = some node) {j : NodeId}
    {old : Node ρ} (hj : g.node? j = some old) : ∃ d, (g.withDriver id node driver).node? j =
      some { old with driver := d } := by
  rw [node?_withDriver hn]
  by_cases he : j = id
  · subst he
    rw [hn] at hj
    cases hj
    exact ⟨driver, if_pos rfl⟩
  · rw [if_neg he, hj]
    exact ⟨old.driver, rfl⟩

/-- No node has come. -/
theorem exists_of_withDriver (hn : g.node? id = some node) {j : NodeId} {new : Node ρ}
    (hj : (g.withDriver id node driver).node? j = some new) :
    ∃ old, g.node? j = some old ∧ ∃ d, new = { old with driver := d } := by
  rw [node?_withDriver hn] at hj
  by_cases he : j = id
  · rw [if_pos he] at hj
    cases hj
    exact ⟨node, he ▸ hn, driver, rfl⟩
  · rw [if_neg he] at hj
    exact ⟨new, hj, new.driver, rfl⟩

theorem segment_withDriver (hn : g.node? id = some node) (j : NodeId) :
    (g.withDriver id node driver).segment j = g.segment j := by
  rw [segment, segment, node?_withDriver hn]
  by_cases he : j = id
  · rw [he, if_pos rfl, hn]
  · rw [if_neg he]

theorem ownsDriver_withDriver (hn : g.node? id = some node) (j : NodeId) :
    (g.withDriver id node driver).ownsDriver j =
      if j = id then driver.isSome else g.ownsDriver j := by
  rw [ownsDriver, ownsDriver, node?_withDriver hn]
  by_cases he : j = id
  · rw [if_pos he, if_pos he]
    rfl
  · rw [if_neg he, if_neg he]

theorem links_withDriver (hn : g.node? id = some node) :
    (g.withDriver id node driver).Links = g.Links := by
  funext a b
  refine propext ⟨?_, ?_⟩
  · rintro ⟨new, hnew, hmem⟩
    obtain ⟨old, hold, d, rfl⟩ := exists_of_withDriver hn hnew
    exact ⟨old, hold, hmem⟩
  · rintro ⟨old, hold, hmem⟩
    obtain ⟨d, hnew⟩ := exists_withDriver driver hn hold
    exact ⟨_, hnew, hmem⟩

theorem below_withDriver (hn : g.node? id = some node) :
    (g.withDriver id node driver).Below = g.Below := by
  rw [Below, Below, links_withDriver hn]

theorem route_withDriver (hn : g.node? id = some node) {a b : NodeId} {segments : List Segment} :
    (g.withDriver id node driver).Route a segments b ↔ g.Route a segments b := by
  constructor
  · intro r
    induction r with
    | here h =>
        obtain ⟨old, hold, -⟩ := exists_of_withDriver hn h
        exact .here hold
    | down hl hs _ ih =>
        rw [links_withDriver hn] at hl
        rw [segment_withDriver hn] at hs
        exact .down hl hs ih
  · intro r
    induction r with
    | here h =>
        obtain ⟨d, hnew⟩ := exists_withDriver driver hn h
        exact .here hnew
    | down hl hs _ ih =>
        exact .down (by rw [links_withDriver hn]; exact hl) (by rw [segment_withDriver hn, hs]) ih

theorem WellLinked.withDriver (w : g.WellLinked) (driver : Option ρ) (hn : g.node? id = some node) :
    (g.withDriver id node driver).WellLinked where
  root := by
    obtain ⟨top, htop, h₁, h₂, h₃⟩ := w.root
    obtain ⟨d, hnew⟩ := exists_withDriver driver hn htop
    exact ⟨_, hnew, h₁, h₂, h₃⟩
  up h hne := by
    obtain ⟨old, hold, d, rfl⟩ := exists_of_withDriver hn h
    obtain ⟨parent, above, hparent, habove, hmem, hoff⟩ := w.up hold hne
    obtain ⟨d', hnew⟩ := exists_withDriver driver hn habove
    exact ⟨parent, _, hparent, hnew, hmem, hoff⟩
  down h hc := by
    obtain ⟨old, hold, d, rfl⟩ := exists_of_withDriver hn h
    obtain ⟨below, hbelow, hparent⟩ := w.down hold hc
    obtain ⟨d', hnew⟩ := exists_withDriver driver hn hbelow
    exact ⟨_, hnew, hparent⟩
  sorted h := by
    obtain ⟨old, hold, d, rfl⟩ := exists_of_withDriver hn h
    have hsorted := w.sorted hold
    simpa only [segment_withDriver hn] using hsorted
  segment h := by
    obtain ⟨old, hold, d, rfl⟩ := exists_of_withDriver hn h
    have hsegment := w.segment hold
    exact hsegment

/-! ### What a look-up can tell -/

/-- The route from the root along the segments ends at a node with this driver. -/
def Holds (g : Graph ρ) (segments : List Segment) (record : ρ) : Prop :=
  ∃ j node, g.Route root segments j ∧ g.node? j = some node ∧ node.driver = some record

theorem Holds.unique (w : g.WellLinked) {segments : List Segment} {r r' : ρ}
    (h : g.Holds segments r) (h' : g.Holds segments r') : r = r' := by
  obtain ⟨j, node, route, hj, hd⟩ := h
  obtain ⟨j', node', route', hj', hd'⟩ := h'
  rw [route.unique w route', hj'] at hj
  cases hj
  exact Option.some.inj (hd.symm.trans hd')

/-- A node owns a driver if something is held at the end of a route to it. -/
theorem ownsDriver_iff {segments : List Segment} {j : NodeId} (w : g.WellLinked)
    (r : g.Route root segments j) : g.ownsDriver j = true ↔ ∃ record, g.Holds segments record := by
  obtain ⟨node, hn⟩ := r.exists_end
  have hown := ownsDriver_of_node? hn
  rw [hown, Option.isSome_iff_exists]
  constructor
  · rintro ⟨record, hd⟩
    exact ⟨record, j, node, r, hn, hd⟩
  · rintro ⟨record, j', node', r', hn', hd⟩
    rw [r'.unique w r, hn] at hn'
    cases hn'
    exact ⟨record, hd⟩

/-- **Taking out idle nodes** changes nothing that a look-up can tell. -/
theorem Severable.holds_iff {gone : List NodeId} (hs : g.Severable gone)
    (hidle : ∀ j ∈ gone, g.ownsDriver j = false) {segments : List Segment} {record : ρ} :
    (g.without gone).Holds segments record ↔ g.Holds segments record := by
  constructor
  · rintro ⟨j, node, r, hj, hd⟩
    obtain ⟨-, old, hold, rfl⟩ := node?_of_without hj
    exact ⟨j, old, (hs.route_iff.mp r).1, hold, hd⟩
  · rintro ⟨j, node, r, hj, hd⟩
    have hgone : j ∉ gone := by
      intro hgone
      have hown := hidle j hgone
      rw [ownsDriver_of_node? hj, hd] at hown
      cases hown
    refine ⟨j, node.dropChildren gone, hs.route_iff.mpr ⟨r, hgone⟩, ?_, hd⟩
    rw [node?_without_of_not_mem hgone, hj]
    rfl

theorem holds_congr (h₁ : ∀ j, g.node? j = h.node? j) {segments : List Segment} {record : ρ} :
    g.Holds segments record ↔ h.Holds segments record := by
  have hroute : ∀ {g h : Graph ρ}, (∀ j, g.node? j = h.node? j) → ∀ {a b : NodeId},
      g.Route a segments b → h.Route a segments b := by
    intro g h h₁ a b r
    induction r with
    | here hn => exact .here ((h₁ _).symm.trans hn)
    | down hl hs _ ih =>
        obtain ⟨node, hn, hmem⟩ := hl
        refine .down ⟨node, (h₁ _).symm.trans hn, hmem⟩ ?_ ih
        rw [segment, ← h₁]
        exact hs
  constructor
  · rintro ⟨j, node, r, hj, hd⟩
    exact ⟨j, node, hroute h₁ r, (h₁ j).symm.trans hj, hd⟩
  · rintro ⟨j, node, r, hj, hd⟩
    exact ⟨j, node, hroute (fun j => (h₁ j).symm) r, (h₁ j).trans hj, hd⟩

/-- **Growing** changes nothing that a look-up can tell. -/
theorem Grown.holds_iff {added : List NodeId} (k : g.Grown added h) {segments : List Segment}
    {record : ρ} : h.Holds segments record ↔ g.Holds segments record := by
  rw [← k.severable.holds_iff fun j hj => ?_]
  · exact holds_congr k.without
  · obtain ⟨node, hn, hd⟩ := k.idle j hj
    rw [ownsDriver_of_node? hn, hd]
    rfl

/-- **A new driver** is held at its node, and elsewhere nothing changes. -/
theorem holds_withDriver (w : g.WellLinked) {segments : List Segment}
    (r : g.Route root segments id) (hn : g.node? id = some node) {other : List Segment}
    {record : ρ} : (g.withDriver id node driver).Holds other record ↔
      if other = segments then driver = some record else g.Holds other record := by
  have hend : ∀ {j : NodeId}, g.Route root other j → (j = id ↔ other = segments) :=
    fun r' => ⟨fun e => r'.segments_unique w (e ▸ r), fun e => r'.unique w (e ▸ r)⟩
  constructor
  · rintro ⟨j, new, r', hj, hd⟩
    rw [route_withDriver hn] at r'
    rw [node?_withDriver hn] at hj
    by_cases he : other = segments
    · rw [if_pos ((hend r').mpr he)] at hj
      cases hj
      rwa [if_pos he]
    · rw [if_neg fun e => he ((hend r').mp e)] at hj
      rw [if_neg he]
      exact ⟨j, new, r', hj, hd⟩
  · intro hold
    by_cases he : other = segments
    · rw [if_pos he] at hold
      exact ⟨id, _, (route_withDriver hn).mpr (he ▸ r), by rw [node?_withDriver hn, if_pos rfl],
        hold⟩
    · rw [if_neg he] at hold
      obtain ⟨j, old, r', hj, hd⟩ := hold
      refine ⟨j, old, (route_withDriver hn).mpr r', ?_, hd⟩
      rw [node?_withDriver hn, if_neg fun e => he ((hend r').mp e), hj]

end VirtualFs.Mount.Graph
