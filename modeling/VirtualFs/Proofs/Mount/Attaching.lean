import VirtualFs.Proofs.Mount.Interchange

/-!
# What attaching comes to

Attaching a driver at any path, after any operations on the graph, ends as `refusal?` says.  If it
is refused, no later call can tell that it was tried.  If not, the graph is the one of before with
a node for every token that was missing (`Placed`).
-/

namespace VirtualFs.Mount.Graph

variable {ρ : Type} {g : Graph ρ}

/-- `h` is `g` with the record at the end of a way, of which `front` was there, down to the node
`deepest`, and the rest was missing: `created` are the nodes that were added, and `id` is the node
with the record. -/
structure Placed (g : Graph ρ) (front missing : List Segment) (deepest : NodeId) (record : ρ)
    (created : List NodeId) (id : NodeId) (h : Graph ρ) : Prop where
  /-- One node is added for every token that was missing. -/
  length : created.length = missing.length
  nodup : created.Nodup
  fresh : ∀ j ∈ created, g.node? j = none
  made : ∀ i, (hlt : i < created.length) →
    h.Route root (front ++ missing.take (i + 1)) created[i]
  live : h.live = g.live + missing.length
  limit : h.limit = g.limit
  /-- The record is at the end of the way, and no added node above it owns one. -/
  route : h.Route root (front ++ missing) id
  driver : (h.node? id).bind (·.driver) = some record
  idle : ∀ j ∈ created, j ≠ id → h.ownsDriver j = false
  /-- The deepest node gets the first of the new nodes as a child, or else the record. -/
  joint : ∃ above l r, g.node? deepest = some above ∧ above.children = l ++ r ∧
    h.node? deepest = some { above with
      children := l ++ created.head?.toList ++ r
      driver := if missing = [] then some record else above.driver }
  /-- All other nodes are what they were. -/
  other : ∀ j, j ≠ deepest → j ∉ created → h.node? j = g.node? j

/-- The record in the last node of a chain. -/
theorem Extends.placed {front missing : List Segment} {deepest last : NodeId}
    {created : List NodeId} {k : Graph ρ} {node : Node ρ} (w : g.WellLinked)
    (route : g.Route root front deepest) (e : g.Extends deepest missing created last k)
    (hn : k.node? last = some node) (record : ρ) :
    g.Placed front missing deepest record created last (k.withDriver last node (some record)) := by
  have hgrown := e.grown w
  have hfresh : ∀ j ∈ created, g.node? j = none := fun j hj =>
    hgrown.fresh (List.mem_reverse.mpr hj)
  obtain ⟨start, hstart⟩ := route.exists_end
  have hroute : ∀ {segments j}, k.Route deepest segments j →
      (k.withDriver last node (some record)).Route root (front ++ segments) j := fun r =>
    (route_withDriver hn).mpr ((hgrown.route route).append r)
  refine
    { length := e.length_eq
      nodup := List.nodup_reverse.mp hgrown.nodup
      fresh := hfresh
      made := fun i hlt => hroute (e.route_getElem hlt)
      live := ?_
      limit := hgrown.limit
      route := hroute (e.route hstart)
      driver := by rw [node?_withDriver hn, if_pos rfl]; rfl
      idle := fun j hj hne => ?_
      joint := ?_
      other := fun j hj hnew => ?_ }
  · rw [← e.length_eq, ← List.length_reverse]
    exact hgrown.live
  · obtain ⟨node', hn', hd⟩ := hgrown.idle j (List.mem_reverse.mpr hj)
    rw [ownsDriver_withDriver hn, if_neg hne, ownsDriver, hn', Option.any_some, hd]
    rfl
  · cases created with
    | nil =>
        cases e
        refine ⟨node, node.children, [], hn, by simp, ?_⟩
        rw [node?_withDriver hn, if_pos rfl]
        simp
    | cons new created =>
        obtain ⟨above, l, r, habove, hchildren, hafter⟩ := e.node?_current
        have hne : deepest ≠ last := by
          rintro rfl
          rcases e.last_cases with ⟨hnil, -⟩ | hlast
          · rw [hnil] at e
            cases e
          · rw [hfresh _ hlast] at hstart
            cases hstart
        have hmissing : missing ≠ [] := by
          rintro rfl
          cases e
        refine ⟨above, l, r, habove, hchildren, ?_⟩
        rw [node?_withDriver hn, if_neg hne, hafter]
        simp [hmissing]
  · have hne : j ≠ last := by
      rintro rfl
      rcases e.last_cases with ⟨-, rfl, -⟩ | hlast
      · exact hj rfl
      · exact hnew hlast
    rw [node?_withDriver hn, if_neg hne, e.node?_other hj hnew]

/-- **Any path and any record**, after any operations: attaching ends as can be told beforehand.
Where it is refused, every later call answers as if it had not been tried. -/
theorem operate_attach [DecidableEq ρ] (limit : Nat) (operations : List (Operation ρ))
    (path : Path) (record : ρ) : ∃ g front missing deepest,
      operate limit operations = .ok g ∧ g.limit = max limit 1 ∧
      g.Deepest (Path.tokens (path.drop 1)) front missing deepest ∧
      match g.refusal? path deepest missing.length with
      | some e => ∃ h changes, g.attach path record = .ok ⟨h, changes, .error e⟩ ∧
          (∀ id, h.node? id = g.node? id) ∧ h.Interchangeable g
      | none => ∃ h changes created id, g.attach path record = .ok ⟨h, changes, .ok id⟩ ∧
          g.Placed front missing deepest record created id h := by
  have hstart : (withLimit limit : Graph ρ).Regular := regular_withLimit limit
  obtain ⟨g, hrun, r, hlimit⟩ := hstart.foldlM_operation operations
  obtain ⟨front, missing, deepest, -, d⟩ := exists_deepest r.linked (path.drop 1)
  refine ⟨g, front, missing, deepest, hrun, hlimit, d, ?_⟩
  cases he : g.refusal? path deepest missing.length with
  | some e =>
      obtain ⟨h, changes, hattach, halike, -, n⟩ := attach_refused r.linked r.numbered d he record
      exact ⟨h, changes, hattach, halike.node,
        halike.interchangeable (halike.symm.regular r n) r⟩
  | none =>
      obtain ⟨created, k, last, node, changes, e, hn, -, hattach⟩ :=
        attach_accepted r.linked r.numbered d he record
      exact ⟨_, changes, created, last, hattach, e.placed r.linked d.route hn record⟩

end VirtualFs.Mount.Graph
