import VirtualFs.Proofs.Mount.Ledger

/-!
# Putting a driver back

A driver that was detached can be attached again at the same path: every node that is then missing
is one that went with the driver, so there is room.

* `Severable.length_le`: no more nodes are missing on a route than were taken out.
* `Regular.reattach`: attaching again is never refused.
-/

namespace VirtualFs.Path

/-- The pieces below the root of a path made of segments are the segments. -/
theorem mem_pieces_belowRoot {segments : List Segment} {piece : Segment}
    (hs : ∀ s ∈ segments, s ≠ [] ∧ delimiter ∉ s)
    (h : piece ∈ pieces ((ofSegments segments).drop 1)) : piece = [] ∨ piece ∈ segments := by
  by_cases hne : piece = []
  · exact .inl hne
  · right
    have hmem : piece ∈ Path.segments ((ofSegments segments).drop 1) :=
      List.mem_filter.mpr ⟨h, by simpa using hne⟩
    by_cases hnil : segments = []
    · rw [hnil] at hmem
      cases hmem
    · rwa [← segments_delimiter, cons_drop_ofSegments hnil, segments_ofSegments hs] at hmem

end VirtualFs.Path

namespace VirtualFs.Mount.Graph

variable {ρ : Type} {g : Graph ρ} {id j : NodeId} {segments : List Segment}

/-- The segments of a route are not too long. -/
theorem Route.byteLength_le (w : g.WellLinked) (r : g.Route id segments j) :
    ∀ s ∈ segments, Path.byteLength s ≤ Limits.maxFilenameLength := by
  induction r with
  | here _ => simp
  | down hl hs _ ih =>
      intro s hmem
      rcases List.mem_cons.mp hmem with rfl | hmem
      · obtain ⟨child, hchild⟩ := w.isTree.exists_of_links hl
        rw [segment_of_node? hchild] at hs
        exact hs ▸ (w.segment hchild).2
      · exact ih s hmem

/-- The nodes on a route, but for its start: one for every segment, and all below the first. -/
theorem Route.exists_nodes (w : g.WellLinked) (r : g.Route id segments j) :
    ∃ nodes : List NodeId, nodes.length = segments.length ∧ nodes.Nodup ∧ ∀ n ∈ nodes, ∃ child,
      g.Links id child ∧ segments.head? = some (g.segment child) ∧ g.Below child n := by
  induction r with
  | here _ => exact ⟨[], rfl, .nil, by simp⟩
  | down hl hs _ ih =>
      rename_i child _ _ _ _
      obtain ⟨nodes, hlength, hnodup, hbelow⟩ := ih
      have hfirst : child ∉ nodes := by
        intro hmem
        obtain ⟨below, hl', -, hb⟩ := hbelow child hmem
        exact w.isTree.not_below_of_links hl' hb
      refine ⟨child :: nodes, by simp [hlength], hnodup.cons hfirst, fun n hn => ?_⟩
      refine ⟨child, hl, by rw [hs]; rfl, ?_⟩
      rcases List.mem_cons.mp hn with rfl | hn
      · exact .refl
      · obtain ⟨below, hl', -, hb⟩ := hbelow n hn
        exact .head hl' hb

/-- **What is missing** behind the end of a route was taken out. -/
theorem Severable.length_le (w : g.WellLinked) {gone : List NodeId} (hs : g.Severable gone)
    {front back : List Segment} (r : g.Route Graph.root (front ++ back) id)
    (r' : (g.without gone).Route Graph.root front j) (hstops : (g.without gone).Stops j back) :
    back.length ≤ gone.length := by
  obtain ⟨rj, hj⟩ := hs.route_iff.mp r'
  obtain ⟨k, rk, rest⟩ := r.exists_between
  rw [rk.unique w rj] at rest
  -- the route went on from `j`, where it now stops, over nodes that have all been taken out
  obtain ⟨nodes, hlength, hnodup, hbelow⟩ := rest.exists_nodes w
  have hsub : nodes ⊆ gone := by
    intro n hn
    obtain ⟨child, hl, hhead, hb⟩ := hbelow n hn
    refine hs.mem_of_below hb ?_
    by_contra hchild
    refine hstops child (links_without hl hj hchild) ?_
    rw [segment_without hchild, hhead]
  rw [← hlength]
  exact (List.subperm_of_subset hnodup hsub).length_le

/-- **Attaching again** at the path of a driver that was detached succeeds. -/
theorem Regular.reattach (r : g.Regular) (hs : ∀ s ∈ segments, s ≠ [] ∧ Path.delimiter ∉ s)
    (route : g.Route root segments id) {node : Node ρ} (hn : g.node? id = some node)
    {gone : List NodeId} (hgone : (g.withDriver id node none).Barren gone)
    (rh : ((g.withDriver id node none).without gone).Regular) (record : ρ) :
    ∃ h changes id', ((g.withDriver id node none).without gone).attach
        (Path.ofSegments segments) record = .ok ⟨h, changes, .ok id'⟩ ∧ h.Regular ∧
      ((g.withDriver id node none).without gone).Attached segments record id' h := by
  have hbelow := Path.belowRoot?_ofSegments segments
  rcases rh.attach (Path.ofSegments segments) record with
    ⟨h, changes, e, -, -, -, refusal⟩ | ⟨rest, h, changes, id', hrest, hattach, rh', ha⟩
  · have w := r.linked.withDriver none hn
    have n : (g.withDriver id node none).Numbered := r.numbered.write hn _
    have route' : (g.withDriver id node none).Route Graph.root segments id :=
      (route_withDriver hn).mpr route
    cases refusal with
    | relative hnone =>
        rw [hbelow] at hnone
        cases hnone
    | long hrest hmem hlong =>
        rw [hbelow] at hrest
        cases hrest
        refine absurd hlong (Nat.not_lt.mpr ?_)
        rcases Path.mem_pieces_belowRoot hs hmem with rfl | hmem
        · exact Nat.zero_le _
        · exact route.byteLength_le r.linked _ hmem
    | full hrest hfull =>
        rw [hbelow] at hrest
        cases hrest
        -- no more nodes are missing on the path than were taken out
        obtain ⟨top, htop, -⟩ := rh.linked.root
        obtain ⟨front, back, j, hsplit, -, rj, hstops⟩ :=
          walk_deepest rh.linked htop none ((Path.ofSegments segments).drop 1)
        have hlt : g.limit < g.live - gone.length + back.length := hfull front back j hsplit rj
        rw [Path.tokens_belowRoot hs] at hsplit
        have hle := hgone.severable.length_le w (hsplit ▸ route') rj hstops
        have hlive : gone.length ≤ g.live := n.counted.length_le_live hgone.nodup hgone.live
        have hlimit := r.numbered.limit
        omega
    | taken hrest hheld =>
        rw [hbelow] at hrest
        cases hrest
        rw [Path.tokens_belowRoot hs, r.holds_detached route hn hgone] at hheld
        exact absurd rfl hheld.1
  · rw [hbelow] at hrest
    cases hrest
    rw [Path.tokens_belowRoot hs] at ha
    exact ⟨h, changes, id', hattach, rh', ha⟩

end VirtualFs.Mount.Graph
