import VirtualFs.Proofs.Mount.Ownership

/-!
# Chains of new nodes

`Extends g current segments created last h` says that `h` is `g` with a new node for every segment,
the first below `current` and each other one below the one before.  `created` are their numbers
from the top downwards, and `last` is the last of them, or `current` if there are none.

Each new node gets the next number of the supply, so a chain that is taken out again from the bottom
upwards leaves no trace (`Extends.alike`).

* `Extends.grown`, `Extends.supply`: what has come, and with which numbers.
* `Extends.route`: the chain leads along the segments.
* `Extends.node?_current`, `Extends.node?_other`: what the nodes that were there are then.
-/

namespace VirtualFs.Mount.Graph

variable {ρ : Type} {g h : Graph ρ}

namespace Inserted

variable {parent new : NodeId} {above : Node ρ} {l r : List NodeId} {segment : Segment}

/-- Nothing is below the new node. -/
theorem not_links_new (i : g.Inserted parent above l r segment new h) {id : NodeId} :
    ¬ h.Links new id := by
  rintro ⟨node, hn, hmem⟩
  rw [i.node?_new] at hn
  cases hn
  cases hmem

theorem stops_new (i : g.Inserted parent above l r segment new h) (segments : List Segment) :
    h.Stops new segments := fun _ hl => absurd hl i.not_links_new

end Inserted

theorem Grown.segment_eq {added : List NodeId} (k : g.Grown added h) {id : NodeId} {node : Node ρ}
    (hn : g.node? id = some node) : h.segment id = g.segment id := by
  obtain ⟨node', hn', rfl⟩ := k.exists_node hn
  rw [segment_of_node? hn, segment_of_node? hn']
  rfl

theorem Grown.route {added : List NodeId} (k : g.Grown added h) {id j : NodeId}
    {segments : List Segment} (r : g.Route id segments j) : h.Route id segments j := by
  induction r with
  | here hn =>
      obtain ⟨node', hn', -⟩ := k.exists_node hn
      exact .here hn'
  | down hl hs r ih =>
      obtain ⟨node, hn⟩ := r.exists_start
      exact .down (k.links hl) ((k.segment_eq hn).trans hs) ih

/-- The text may stand in a path between two delimiters. -/
def Fits (segment : Segment) : Prop :=
  Path.delimiter ∉ segment ∧ Path.byteLength segment ≤ Limits.maxFilenameLength

/-- `h` is `g` with a chain of new nodes below `current`, one for every segment. -/
inductive Extends : Graph ρ → NodeId → List Segment → List NodeId → NodeId → Graph ρ → Prop where
  | here {g : Graph ρ} {current : NodeId} : Extends g current [] [] current g
  | down {g g' h : Graph ρ} {current new last : NodeId} {above : Node ρ} {l r created : List NodeId}
      {segment : Segment} {segments : List Segment}
      (i : g.Inserted current above l r segment new g') (w : g'.WellLinked) (n : g'.Numbered)
      (hsupply : g.supply = Stream'.cons new g'.supply) (hlimit : g'.limit = g.limit)
      (hlive : g'.live = g.live + 1) (rest : Extends g' new segments created last h) :
      Extends g current (segment :: segments) (new :: created) last h

namespace Extends

variable {current last new : NodeId} {segments : List Segment} {created : List NodeId}

theorem length_eq (e : g.Extends current segments created last h) :
    created.length = segments.length := by
  induction e with
  | here => rfl
  | down _ _ _ _ _ _ _ ih => rw [List.length_cons, List.length_cons, ih]

theorem wellLinked (e : g.Extends current segments created last h) (w : g.WellLinked) :
    h.WellLinked := by
  induction e with
  | here => exact w
  | down _ w' _ _ _ _ _ ih => exact ih w'

theorem numbered (e : g.Extends current segments created last h) (n : g.Numbered) :
    h.Numbered := by
  induction e with
  | here => exact n
  | down _ _ n' _ _ _ _ ih => exact ih n'

theorem grown (e : g.Extends current segments created last h) (w : g.WellLinked) :
    g.Grown created.reverse h := by
  induction e with
  | here => exact .refl _
  | down i w' _ _ hlimit hlive _ ih =>
      rw [List.reverse_cons]
      exact (i.grown w hlimit hlive).trans (ih w')

/-- **The new nodes** are given the next numbers. -/
theorem supply (e : g.Extends current segments created last h) :
    g.supply = created ++ₛ h.supply := by
  induction e with
  | here => rfl
  | down _ _ _ hsupply _ _ _ ih => rw [hsupply, ih, Stream'.cons_append_stream]

/-- One more node below the last. -/
theorem snoc {g' : Graph ρ} {above : Node ρ} {l r : List NodeId} {segment : Segment}
    (e : g.Extends current segments created last h)
    (i : h.Inserted last above l r segment new g') (w : g'.WellLinked) (n : g'.Numbered)
    (hsupply : h.supply = Stream'.cons new g'.supply) (hlimit : g'.limit = h.limit)
    (hlive : g'.live = h.live + 1) :
    g.Extends current (segments ++ [segment]) (created ++ [new]) new g' := by
  induction e with
  | here => exact .down i w n hsupply hlimit hlive .here
  | down i' w' n' hsupply' hlimit' hlive' _ ih =>
      exact .down i' w' n' hsupply' hlimit' hlive' (ih i hsupply hlimit hlive)

/-! ### Where the new nodes are -/

/-- **The chain leads along the segments.** -/
theorem route (e : g.Extends current segments created last h) {node : Node ρ}
    (hn : g.node? current = some node) : h.Route current segments last := by
  induction e generalizing node with
  | here => exact .here hn
  | down i w' _ _ _ _ rest ih =>
      have k := rest.grown w'
      refine .down (k.links i.links_new) ?_ (ih i.node?_new)
      rw [k.segment_eq i.node?_new, i.segment_new]

/-- Each new node is at the end of its part of the way. -/
theorem route_getElem (e : g.Extends current segments created last h) {n : Nat}
    (hlt : n < created.length) : h.Route current (segments.take (n + 1)) created[n] := by
  induction e generalizing n with
  | here => cases hlt
  | down i w' _ _ _ _ rest ih =>
      have k := rest.grown w'
      have hlink := k.links i.links_new
      have hsegment := (k.segment_eq i.node?_new).trans i.segment_new
      cases n with
      | zero =>
          obtain ⟨node, hn, -⟩ := k.exists_node i.node?_new
          exact .down hlink hsegment (.here hn)
      | succ n => exact .down hlink hsegment (ih (Nat.lt_of_succ_lt_succ hlt))

/-- All new nodes are below the one that the chain begins at. -/
theorem below_current (e : g.Extends current segments created last h) :
    ∀ j ∈ created, h.Below current j := by
  intro j hj
  obtain ⟨n, hlt, rfl⟩ := List.mem_iff_getElem.mp hj
  exact (e.route_getElem hlt).isBelow

/-- Each new node is above those that came after it. -/
theorem ordered (e : g.Extends current segments created last h) : created.Pairwise h.Below := by
  induction e with
  | here => exact .nil
  | down _ _ _ _ _ _ rest ih => exact .cons rest.below_current ih

/-- And all are above the last. -/
theorem below_last (e : g.Extends current segments created last h) :
    ∀ j ∈ created, h.Below j last := by
  induction e with
  | here => simp
  | down i _ _ _ _ _ rest ih =>
      intro j hj
      rcases List.mem_cons.mp hj with rfl | hj
      · exact (rest.route i.node?_new).isBelow
      · exact ih j hj

/-- Below the first new node are the new nodes, and no others. -/
theorem below_first_iff (e : g.Extends current segments (new :: created) last h) (w : g.WellLinked)
    {j : NodeId} : h.Below new j ↔ j ∈ new :: created := by
  constructor
  · intro hb
    exact List.mem_reverse.mp ((e.grown w).severable.mem_of_below hb (by simp))
  · cases e with
    | down _ _ _ _ _ _ rest =>
        intro hj
        rcases List.mem_cons.mp hj with rfl | hj
        · exact .refl
        · exact rest.below_current j hj

/-- The last node is new, if there are any. -/
theorem last_cases (e : g.Extends current segments created last h) :
    (segments = [] ∧ last = current ∧ h = g) ∨ last ∈ created := by
  induction e with
  | here => exact .inl ⟨rfl, rfl, rfl⟩
  | down _ _ _ _ _ _ _ ih =>
      rcases ih with ⟨-, rfl, -⟩ | hlast
      · exact .inr List.mem_cons_self
      · exact .inr (List.mem_cons_of_mem _ hlast)

/-! ### What else there is -/

/-- All other nodes are what they were. -/
theorem node?_other (e : g.Extends current segments created last h) {j : NodeId}
    (hj : j ≠ current) (hnew : j ∉ created) : h.node? j = g.node? j := by
  induction e with
  | here => rfl
  | down i _ _ _ _ _ _ ih =>
      obtain ⟨hne, hnew⟩ := List.ne_and_not_mem_of_not_mem_cons hnew
      rw [ih hne hnew, i.node?_other hne hj]

/-- **The node that the chain begins at** gets one new child. -/
theorem node?_current (e : g.Extends current segments (new :: created) last h) :
    ∃ above l r, g.node? current = some above ∧ above.children = l ++ r ∧
      h.node? current = some { above with children := l ++ new :: r } := by
  cases e with
  | down i w' _ _ _ _ rest =>
      have hcreated := (rest.grown w').not_mem i.node?_parent
      rw [List.mem_reverse] at hcreated
      exact ⟨_, _, _, i.found, i.children, (rest.node?_other i.parent_ne hcreated).trans
        i.node?_parent⟩

end Extends

end VirtualFs.Mount.Graph
