import VirtualFs.Proofs.Mount.Fruitful
import VirtualFs.Proofs.Path.Tokens

/-!
# Routes

`Route g id segments j` says that the way down from `id` along `segments` ends at `j`.  A look-up
goes down a route as far as there is one:

* `walk_exact`: the look-up of a whole path finds the end of its route.
* `walk_deepest`: that of the deepest node finds the end of the longest route along the path.
* `walk_driver`: that of a driver finds the last driver on a route along the path.

Routes are unique both ways: one node for every list of segments, and one list for every node.
-/

namespace VirtualFs.Mount.Graph

variable {ρ : Type} {g : Graph ρ}

/-- Going down from the first node along the segments leads to the second. -/
inductive Route (g : Graph ρ) : NodeId → List Segment → NodeId → Prop where
  | here {id : NodeId} {node : Node ρ} (h : g.node? id = some node) : Route g id [] id
  | down {id child j : NodeId} {segment : Segment} {rest : List Segment} (hl : g.Links id child)
      (hs : g.segment child = segment) (h : Route g child rest j) : Route g id (segment :: rest) j

namespace Route

variable {id j k : NodeId} {a b : List Segment}

theorem exists_end (r : g.Route id a j) : ∃ node, g.node? j = some node := by
  induction r with
  | here h => exact ⟨_, h⟩
  | down _ _ _ ih => exact ih

theorem exists_start (r : g.Route id a j) : ∃ node, g.node? id = some node := by
  cases r with
  | here h => exact ⟨_, h⟩
  | down hl _ _ =>
      obtain ⟨node, h, -⟩ := hl
      exact ⟨node, h⟩

theorem isBelow (r : g.Route id a j) : g.Below id j := by
  induction r with
  | here _ => exact .refl
  | down hl _ _ ih => exact .head hl ih

theorem append (r : g.Route id a k) (r' : g.Route k b j) : g.Route id (a ++ b) j := by
  induction r with
  | here _ => exact r'
  | down hl hs _ ih => exact .down hl hs (ih r')

/-- A route along two lists passes through a node between them. -/
theorem exists_between (r : g.Route id (a ++ b) j) : ∃ k, g.Route id a k ∧ g.Route k b j := by
  induction a generalizing id with
  | nil =>
      obtain ⟨node, h⟩ := r.exists_start
      exact ⟨id, .here h, r⟩
  | cons s a ih =>
      cases r with
      | down hl hs r =>
          obtain ⟨k, r₁, r₂⟩ := ih r
          exact ⟨k, .down hl hs r₁, r₂⟩

/-- A route goes through the one child with the first segment. -/
theorem down_iff (w : g.WellLinked) {child : NodeId} {segment : Segment} (hl : g.Links id child)
    (hs : g.segment child = segment) : g.Route id (segment :: a) j ↔ g.Route child a j := by
  constructor
  · intro r
    cases r with
    | down hl' hs' r =>
        obtain ⟨node, h, hc⟩ := hl
        obtain ⟨node', h', hc'⟩ := hl'
        rw [h] at h'
        cases h'
        rwa [w.child_eq_of_segment h hc' hc (hs'.trans hs.symm)] at r
  · exact .down hl hs

/-- **One node** at the end of every list of segments. -/
theorem unique (w : g.WellLinked) (r : g.Route id a j) (r' : g.Route id a k) : j = k := by
  induction r with
  | here _ =>
      cases r' with
      | here _ => rfl
  | down hl hs _ ih => exact ih ((down_iff w hl hs).mp r')

/-- A node's offset counts the bytes of the way to it. -/
theorem offset (w : g.WellLinked) (r : g.Route id a j) {top bottom : Node ρ}
    (ht : g.node? id = some top) (hb : g.node? j = some bottom) :
    bottom.offset = top.offset + Path.span a := by
  induction r generalizing top with
  | here _ =>
      rw [ht] at hb
      cases hb
      rfl
  | down hl hs _ ih =>
      obtain ⟨child, hchild⟩ := w.isTree.exists_of_links hl
      obtain ⟨node, h, hc⟩ := hl
      rw [ht] at h
      cases h
      have hoff := w.offset_child ht hc hchild
      rw [segment_of_node? hchild] at hs
      rw [ih hchild hb, hoff, hs, Path.span_cons]
      omega

end Route

/-- Every node below a live one has a route to it. -/
theorem WellLinked.exists_route (w : g.WellLinked) {id j : NodeId} {node : Node ρ}
    (h : g.node? id = some node) (hb : g.Below id j) : ∃ segments, g.Route id segments j := by
  induction hb with
  | refl => exact ⟨[], .here h⟩
  | tail _ hl ih =>
      obtain ⟨segments, r⟩ := ih
      obtain ⟨child, hchild⟩ := w.isTree.exists_of_links hl
      exact ⟨_, r.append (.down hl rfl (.here hchild))⟩

/-- **One list of segments** for every node. -/
theorem Route.segments_unique (w : g.WellLinked) {id j : NodeId} {a b : List Segment}
    (r : g.Route id a j) (r' : g.Route id b j) : a = b := by
  induction r generalizing b with
  | here _ =>
      cases r' with
      | here _ => rfl
      | down hl _ r' => exact absurd r'.isBelow (w.isTree.not_below_of_links hl)
  | down hl hs r ih =>
      cases r' with
      | here _ => exact absurd r.isBelow (w.isTree.not_below_of_links hl)
      | down hl' hs' r' =>
          have hsame := w.isTree.sibling_eq hl' hl r'.isBelow r.isBelow
          rw [hsame] at r' hs'
          rw [← hs, hs', ih r']

/-! ### What is taken out -/

/-- Without nodes that are severable, the routes to the others are the same. -/
theorem Severable.route_iff {gone : List NodeId} (hs : g.Severable gone) {id j : NodeId}
    {a : List Segment} : (g.without gone).Route id a j ↔ g.Route id a j ∧ j ∉ gone := by
  constructor
  · intro r
    induction r with
    | here h =>
        obtain ⟨hid, node, h, -⟩ := node?_of_without h
        exact ⟨.here h, hid⟩
    | down hl hseg _ ih =>
        rename_i child _ _ _ _
        have hchild : child ∉ gone := by
          intro hc
          obtain ⟨node, h, hmem⟩ := hl
          obtain ⟨-, old, -, rfl⟩ := node?_of_without h
          simpa [hc] using (List.mem_filter.mp hmem).2
        rw [segment_without hchild] at hseg
        exact ⟨.down (links_of_without hl) hseg ih.1, ih.2⟩
  · rintro ⟨r, hj⟩
    induction r with
    | here h => exact .here (by rw [node?_without_of_not_mem hj, h]; rfl)
    | down hl hseg r ih =>
        have hchild := fun hc => hj (hs.mem_of_below r.isBelow hc)
        have hid := fun hid => hchild (hs.down hid hl)
        exact .down (links_without hl hid hchild) (by rw [segment_without hchild, hseg]) (ih hj)

/-! ### Going down by halving -/

/-- Halving finds the child with a segment. -/
theorem WellLinked.child?_eq_some (w : g.WellLinked) {id child : NodeId} {node : Node ρ}
    (h : g.node? id = some node) {segment : Segment} :
    g.child? node segment = some child ↔ g.Links id child ∧ g.segment child = segment := by
  rw [child?, Search.find?_eq (w.ascending h segment)]
  have heq : ∀ c, (g.orderTo segment c == .eq) = true ↔ g.segment c = segment := by
    intro c
    rw [beq_iff_eq, orderTo, Segment.order_eq_iff]
  constructor
  · intro hfind
    have hfound := List.find?_some hfind
    exact ⟨⟨node, h, List.mem_of_find?_eq_some hfind⟩, (heq child).mp hfound⟩
  · rintro ⟨⟨node', h', hmem⟩, rfl⟩
    rw [h] at h'
    cases h'
    cases hfind : node.children.find? (g.orderTo (g.segment child) · == .eq) with
    | none => exact absurd ((heq child).mpr rfl) (List.find?_eq_none.mp hfind child hmem)
    | some other =>
        have hfound := List.find?_some hfind
        rw [w.child_eq_of_segment h (List.mem_of_find?_eq_some hfind) hmem ((heq other).mp hfound)]

/-- Where halving finds no child, there is none with the segment. -/
theorem WellLinked.child?_eq_none (w : g.WellLinked) {id : NodeId} {node : Node ρ}
    (h : g.node? id = some node) {segment : Segment} (hnone : g.child? node segment = none)
    {child : NodeId} (hl : g.Links id child) : g.segment child ≠ segment := by
  intro hs
  rw [(w.child?_eq_some h).mpr ⟨hl, hs⟩] at hnone
  cases hnone

/-- **The look-up of a whole path** finds the end of its route. -/
theorem walk_exact (w : g.WellLinked) {id : NodeId} {node : Node ρ} (h : g.node? id = some node)
    {best : Option NodeId} {rest : Path} {j : NodeId} :
    g.walk .exact id best rest = some j ↔ g.Route id (Path.tokens rest) j := by
  fun_induction walk g .exact id best rest generalizing node with
  | case1 id best rest hnone =>
      rw [hnone] at h
      cases h
  | case2 id best rest node hn htake =>
      rw [Path.tokens_of_takeToken?_none htake]
      constructor
      · intro e
        cases e
        exact .here hn
      · intro r
        cases r
        rfl
  | case3 id best rest node hn htake hne => exact absurd rfl hne
  | case4 id best rest node hn token remainder htake child hchild ih =>
      obtain ⟨hl, hs⟩ := (w.child?_eq_some hn).mp hchild
      obtain ⟨below, hb⟩ := w.isTree.exists_of_links hl
      rw [ih hb, Path.tokens_of_takeToken? htake, Route.down_iff w hl hs]
  | case5 id best rest node hn token remainder htake hchild =>
      rw [Path.tokens_of_takeToken? htake]
      refine ⟨(fun e => by cases e), fun r => ?_⟩
      cases r with
      | down hl hs r => exact absurd hs (w.child?_eq_none hn hchild hl)
  | case6 id best rest node hn token remainder htake hchild hne => exact absurd rfl hne

/-- No child of the node is the next one for the segments. -/
def Stops (g : Graph ρ) (id : NodeId) (segments : List Segment) : Prop :=
  ∀ child, g.Links id child → segments.head? ≠ some (g.segment child)

/-- **The look-up of the deepest node** finds the end of the longest route along the path. -/
theorem walk_deepest (w : g.WellLinked) {id : NodeId} {node : Node ρ} (h : g.node? id = some node)
    (best : Option NodeId) (rest : Path) : ∃ front back j, Path.tokens rest = front ++ back ∧
      g.walk .deepest id best rest = some j ∧ g.Route id front j ∧ g.Stops j back := by
  fun_induction walk g .deepest id best rest generalizing node with
  | case1 id best rest hnone =>
      rw [hnone] at h
      cases h
  | case2 id best rest node hn htake hmode => cases hmode
  | case3 id best rest node hn htake =>
      exact ⟨[], [], id, Path.tokens_of_takeToken?_none htake, rfl, .here hn, fun _ _ => by simp⟩
  | case4 id best rest node hn token remainder htake child hchild ih =>
      obtain ⟨hl, hs⟩ := (w.child?_eq_some hn).mp hchild
      obtain ⟨below, hb⟩ := w.isTree.exists_of_links hl
      obtain ⟨front, back, j, htokens, hwalk, r, hstop⟩ := ih hb
      exact ⟨token :: front, back, j, by rw [Path.tokens_of_takeToken? htake, htokens]; rfl, hwalk,
        .down hl hs r, hstop⟩
  | case5 id best rest node hn token remainder htake hchild hmode => cases hmode
  | case6 id best rest node hn token remainder htake hchild =>
      refine ⟨[], _, id, rfl, rfl, .here hn, fun child hl he => ?_⟩
      rw [Path.tokens_of_takeToken? htake, List.head?_cons, Option.some.injEq] at he
      exact w.child?_eq_none hn hchild hl he.symm

/-- `answer` is the last node that owns a driver on the routes from `id` along the tokens, or `best`
if none does. -/
def LastOwner (g : Graph ρ) (id : NodeId) (tokens : List Segment)
    (best answer : Option NodeId) : Prop :=
  (∃ front back j, tokens = front ++ back ∧ answer = some j ∧ g.Route id front j ∧
    g.ownsDriver j = true ∧ ∀ more k, more ≠ [] → more <+: back → g.Route id (front ++ more) k →
      g.ownsDriver k = false) ∨
  (answer = best ∧ ∀ front k, front <+: tokens → g.Route id front k → g.ownsDriver k = false)

/-- If there is no owner on the routes further down, the last one is `id` or none. -/
theorem lastOwner_candidate {id : NodeId} {node : Node ρ} (h : g.node? id = some node)
    {tokens : List Segment} (best : Option NodeId)
    (hdown : ∀ front k, front ≠ [] → front <+: tokens → g.Route id front k →
      g.ownsDriver k = false) :
    g.LastOwner id tokens best (candidate .driver id node best) := by
  have hown := ownsDriver_of_node? h
  rw [candidate]
  cases hd : node.driver.isSome with
  | true => exact .inl ⟨[], tokens, id, rfl, rfl, .here h, hown.trans hd, hdown⟩
  | false =>
      refine .inr ⟨rfl, fun front k hpre r => ?_⟩
      cases r with
      | here _ => exact hown.trans hd
      | down hl hs r => exact hdown _ k (by simp) hpre (.down hl hs r)

/-- The last owner below a child on the way is the last owner. -/
theorem LastOwner.down (w : g.WellLinked) {id child : NodeId} {node : Node ρ}
    (h : g.node? id = some node) (hl : g.Links id child) {tokens : List Segment}
    {best answer : Option NodeId}
    (ho : g.LastOwner child tokens (candidate .driver id node best) answer) :
    g.LastOwner id (g.segment child :: tokens) best answer := by
  rcases ho with ⟨front, back, j, rfl, rfl, r, hown, hlast⟩ | ⟨rfl, hnone⟩
  · exact .inl ⟨g.segment child :: front, back, j, rfl, rfl, .down hl rfl r, hown,
      fun more k hne hpre r => hlast more k hne hpre ((Route.down_iff w hl rfl).mp r)⟩
  · refine lastOwner_candidate h best ?_
    intro front k hne hpre r
    cases front with
    | nil => exact absurd rfl hne
    | cons s front =>
        obtain ⟨rfl, hfront⟩ := List.cons_prefix_cons.mp hpre
        exact hnone front k hfront ((Route.down_iff w hl rfl).mp r)

/-- There is one last owner. -/
theorem LastOwner.unique (w : g.WellLinked) {id : NodeId} {tokens : List Segment}
    {best a b : Option NodeId} (ha : g.LastOwner id tokens best a)
    (hb : g.LastOwner id tokens best b) : a = b := by
  have hlater : ∀ {front more back : List Segment} {j k : NodeId}, g.Route id front j →
      g.Route id (front ++ more) k → g.ownsDriver k = true →
      (∀ more' k, more' ≠ [] → more' <+: more ++ back → g.Route id (front ++ more') k →
        g.ownsDriver k = false) → j = k := by
    intro front more back j k rj rk hown hlast
    by_cases hne : more = []
    · rw [hne, List.append_nil] at rk
      exact rj.unique w rk
    · rw [hlast more k hne (List.prefix_append _ _) rk] at hown
      cases hown
  rcases ha with ⟨front, back, j, rfl, rfl, rj, hj, hlast⟩ | ⟨rfl, hnone⟩
  · rcases hb with ⟨front', back', k, hsplit, rfl, rk, hk, hlast'⟩ | ⟨rfl, hnone⟩
    · rcases List.append_eq_append_iff.mp hsplit with ⟨more, rfl, rfl⟩ | ⟨more, rfl, rfl⟩
      · exact congrArg some (hlater rj rk hk hlast)
      · exact congrArg some (hlater rk rj hj hlast').symm
    · rw [hnone front j (List.prefix_append _ _) rj] at hj
      cases hj
  · rcases hb with ⟨front, back, k, rfl, rfl, rk, hk, -⟩ | ⟨rfl, -⟩
    · rw [hnone front k (List.prefix_append _ _) rk] at hk
      cases hk
    · rfl

/-- **The look-up of a driver** finds the last one on a route along the path. -/
theorem walk_driver (w : g.WellLinked) {id : NodeId} {node : Node ρ} (h : g.node? id = some node)
    (best : Option NodeId) (rest : Path) :
    g.LastOwner id (Path.tokens rest) best (g.walk .driver id best rest) := by
  fun_induction walk g .driver id best rest generalizing node with
  | case1 id best rest hnone =>
      rw [hnone] at h
      cases h
  | case2 id best rest node hn htake hmode => cases hmode
  | case3 id best rest node hn htake =>
      rw [Path.tokens_of_takeToken?_none htake]
      exact lastOwner_candidate hn best fun front k hne hpre =>
        absurd (List.prefix_nil.mp hpre) hne
  | case4 id best rest node hn token remainder htake child hchild ih =>
      obtain ⟨hl, rfl⟩ := (w.child?_eq_some hn).mp hchild
      obtain ⟨below, hb⟩ := w.isTree.exists_of_links hl
      rw [Path.tokens_of_takeToken? htake]
      exact (ih hb).down w hn hl
  | case5 id best rest node hn token remainder htake hchild hmode => cases hmode
  | case6 id best rest node hn token remainder htake hchild =>
      rw [Path.tokens_of_takeToken? htake]
      refine lastOwner_candidate hn best ?_
      intro front k hne hpre r
      cases r with
      | here _ => exact absurd rfl hne
      | down hl hs _ =>
          rw [(List.cons_prefix_cons.mp hpre).1] at hs
          exact absurd hs (w.child?_eq_none hn hchild hl)

end VirtualFs.Mount.Graph
