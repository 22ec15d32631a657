import VirtualFs.Proofs.Mount.Chain

/-!
# Attaching a driver

A driver goes to the end of the path's tokens, and what is missing on the way is added below the
deepest node that is there (`Deepest`).  Whether that is possible can be told beforehand
(`refusal?`), and where it is not the graph is the one of before, numbers to come included.

* `extend_ok`: where there is room, the nodes for some segments are added one below the other.
* `extend_full`: where there is not, all that was added goes again.
* `attach_eq`: how attaching ends.
* `attach_cases`: a driver is attached at a path and all else stays as it was, or, for one of four
  reasons (`Refusal`), the nodes are those of before.
-/

namespace VirtualFs.Mount.Graph

variable {ρ : Type} {g h : Graph ρ}

/-! ### Adding the missing nodes -/

/-- **Where there is room**, all nodes are added. -/
theorem extend_ok (w : g.WellLinked) (n : g.Numbered) {current : NodeId} {node : Node ρ}
    (hn : g.node? current = some node) (first : Option NodeId) {segments : List Segment}
    (hfits : ∀ s ∈ segments, Fits s) (hstops : g.Stops current segments)
    (hroom : g.live + segments.length ≤ g.limit) :
    ∃ created h changes last, g.extend current first segments = .ok ⟨h, changes, .ok last⟩ ∧
      g.Extends current segments created last h := by
  induction segments generalizing g current node first with
  | nil => exact ⟨[], g, [], current, rfl, .here⟩
  | cons s segments ih =>
      rw [List.length_cons] at hroom
      have hs : ∀ c ∈ node.children, g.segment c ≠ s := fun c hc e =>
        hstops c ⟨node, hn, hc⟩ (by rw [e]; rfl)
      obtain ⟨l, r, new, g', hadd, i, n', hsupply, hlimit, hlive⟩ :=
        addChild_eq w n hn (by omega) hs
      have w' := i.wellLinked w (hfits s List.mem_cons_self)
      obtain ⟨created, h, changes, last, hrest, e⟩ := ih w' n' i.node?_new (first.or (some new))
        (fun t ht => hfits t (List.mem_cons_of_mem _ ht)) (i.stops_new segments) (by omega)
      refine ⟨new :: created, h, .added s new :: changes, last, ?_,
        .down i w' n' hsupply hlimit hlive e⟩
      rw [extend, hadd]
      simp only [bind, Except.bind, pure, Except.pure, hrest]

/-- A chain that is cleaned away from its first node on leaves no trace. -/
theorem Extends.prune {current last new : NodeId} {segments : List Segment} {created : List NodeId}
    (e : g.Extends current segments (new :: created) last h) (w : g.WellLinked) (n : g.Numbered) :
    ∃ i changes, h.prune new = .ok ⟨i, changes, false⟩ ∧ i.Alike g ∧ i.WellLinked ∧
      i.Numbered := by
  have k := e.grown w
  obtain ⟨node, hnew, -⟩ := k.idle new (by simp)
  have hlive : ∀ id ∈ (new :: created).reverse, ∃ node, h.node? id = some node := fun id hid =>
    (k.idle id hid).imp fun _ => And.left
  refine ⟨_, _, k.prune (e.wellLinked w) (e.numbered n) hnew (fun j => ?_)
    (List.pairwise_reverse.mpr e.ordered), k.alike_without ?_,
    (e.wellLinked w).without k.severable, (e.numbered n).without k.nodup hlive⟩
  · rw [e.below_first_iff w, List.mem_reverse]
  · rw [List.reverse_reverse]
    exact e.supply

/-- **Where there is no room**, what was added goes again, and leaves no trace. -/
theorem extend_full {g₀ : Graph ρ} (w₀ : g₀.WellLinked) (n₀ : g₀.Numbered) {start current : NodeId}
    {done segments : List Segment} {created : List NodeId}
    (e : g₀.Extends start done created current g) {node : Node ρ}
    (hn : g.node? current = some node) (hfits : ∀ s ∈ segments, Fits s)
    (hstops : g.Stops current segments) (hfull : g.limit < g.live + segments.length) :
    ∃ h changes, g.extend current created.head? segments = .ok ⟨h, changes, .error .noMemory⟩ ∧
      h.Alike g₀ ∧ h.WellLinked ∧ h.Numbered := by
  have w := e.wellLinked w₀
  have n := e.numbered n₀
  induction segments generalizing g created current done node with
  | nil => exact absurd n.limit (Nat.not_le.mpr hfull)
  | cons s segments ih =>
      rw [List.length_cons] at hfull
      by_cases hroom : g.live < g.limit
      · have hvacant : ∀ c ∈ node.children, g.segment c ≠ s := fun c hc e =>
          hstops c ⟨node, hn, hc⟩ (by rw [e]; rfl)
        obtain ⟨l, r, new, g', hadd, i, n', hsupply, hlimit, hlive⟩ :=
          addChild_eq w n hn hroom hvacant
        have w' := i.wellLinked w (hfits s List.mem_cons_self)
        obtain ⟨h, changes, hrest, hback⟩ := ih (e.snoc i w' n' hsupply hlimit hlive) i.node?_new
          (fun t ht => hfits t (List.mem_cons_of_mem _ ht)) (i.stops_new segments) (by omega) w' n'
        rw [List.head?_append, List.head?_singleton] at hrest
        refine ⟨h, .added s new :: changes, ?_, hback⟩
        rw [extend, hadd]
        simp only [bind, Except.bind, pure, Except.pure, hrest]
      · have hadd := addChild_full (Nat.not_lt.mp hroom) current s
        cases created with
        | nil =>
            cases e
            refine ⟨g₀, [], ?_, .refl g₀, w, n⟩
            rw [extend, hadd]
            rfl
        | cons first created =>
            obtain ⟨h, changes, hprune, hback⟩ := e.prune w₀ n₀
            refine ⟨h, changes, ?_, hback⟩
            rw [extend, hadd]
            simp only [List.head?_cons, bind, Except.bind, pure, Except.pure, hprune]

/-! ### The whole attachment -/

/-- The tokens go as far as `front` in the graph, to the node `id`, and the rest is missing. -/
structure Deepest (g : Graph ρ) (tokens front missing : List Segment) (id : NodeId) : Prop where
  split : tokens = front ++ missing
  route : g.Route root front id
  /-- There is no node further on. -/
  beyond : ∀ more j, more ≠ [] → more <+: missing → ¬ g.Route root (front ++ more) j

section

variable {tokens front missing : List Segment} {id : NodeId}

/-- Where the tokens stop for want of a child, they have come to the deepest node. -/
theorem Stops.deepest (hs : g.Stops id missing) (w : g.WellLinked) (r : g.Route root front id) :
    g.Deepest (front ++ missing) front missing id where
  split := rfl
  route := r
  beyond more j hne hpre r' := by
    obtain ⟨k, r₁, r₂⟩ := r'.exists_between
    rw [r₁.unique w r] at r₂
    cases r₂ with
    | here _ => exact hne rfl
    | down hl hseg _ =>
        obtain ⟨rest, rfl⟩ := hpre
        exact hs _ hl (congrArg some hseg.symm)

theorem Deepest.stops (d : g.Deepest tokens front missing id) (w : g.WellLinked) :
    g.Stops id missing := by
  intro child hl hhead
  obtain ⟨below, hb⟩ := w.isTree.exists_of_links hl
  obtain ⟨rest, rfl⟩ := List.head?_eq_some_iff.mp hhead
  exact d.beyond [g.segment child] child (by simp) ⟨rest, rfl⟩
    (d.route.append (.down hl rfl (.here hb)))

/-- No node on the way along the tokens is further on. -/
theorem Deepest.exists_between (d : g.Deepest tokens front missing id)
    {front' missing' : List Segment} {j : NodeId} (hsplit : tokens = front' ++ missing')
    (r : g.Route root front' j) :
    ∃ more, front = front' ++ more ∧ missing' = more ++ missing := by
  rcases List.append_eq_append_iff.mp (d.split.symm.trans hsplit) with
    ⟨more, rfl, rfl⟩ | ⟨more, rfl, rfl⟩
  · by_cases hne : more = []
    · exact ⟨[], by simp [hne], by simp [hne]⟩
    · exact absurd r (d.beyond more j hne ⟨_, rfl⟩)
  · exact ⟨more, rfl, rfl⟩

/-- **One deepest node** for every list of tokens. -/
theorem Deepest.unique (d : g.Deepest tokens front missing id) (w : g.WellLinked)
    {front' missing' : List Segment} {j : NodeId} (d' : g.Deepest tokens front' missing' j) :
    front' = front ∧ missing' = missing ∧ j = id := by
  obtain ⟨more, hfront, hmissing⟩ := d.exists_between d'.split d'.route
  obtain ⟨more', hfront', -⟩ := d'.exists_between d.split d.route
  have hnil : more = [] := by
    have hlength := congrArg List.length hfront
    rw [hfront'] at hlength
    simp only [List.length_append] at hlength
    exact List.eq_nil_of_length_eq_zero (by omega)
  rw [hnil, List.append_nil] at hfront
  rw [hnil, List.nil_append] at hmissing
  subst hfront hmissing
  exact ⟨rfl, rfl, d'.route.unique w d.route⟩

end

/-- The look-up of the deepest node finds it. -/
theorem exists_deepest (w : g.WellLinked) (rest : Path) : ∃ front missing id,
    g.walk .deepest root none rest = some id ∧ g.Deepest (Path.tokens rest) front missing id := by
  obtain ⟨top, htop, -⟩ := w.root
  obtain ⟨front, missing, id, htokens, hwalk, route, hstops⟩ := walk_deepest w htop none rest
  exact ⟨front, missing, id, hwalk, htokens ▸ hstops.deepest w route⟩

theorem fits_of_mem_tokens {rest : Path}
    (h : ∀ piece ∈ Path.pieces rest, Path.byteLength piece ≤ Limits.maxFilenameLength) :
    ∀ s ∈ Path.tokens rest, Fits s := fun s hs =>
  ⟨Path.delimiter_not_mem s hs, h s (Path.mem_pieces_of_mem_tokens hs)⟩

theorem find_of_belowRoot {path rest : Path} (h : Path.belowRoot? path = some rest) (mode : Mode) :
    g.find path mode = g.walk mode root none rest := by
  rw [find, h]

/-- Attaching at a path that may be used goes on below the deepest node on the path. -/
theorem attach_below (w : g.WellLinked) {path rest : Path}
    (hbelow : Path.belowRoot? path = some rest)
    (hshort : ∀ piece ∈ Path.pieces rest, Path.byteLength piece ≤ Limits.maxFilenameLength)
    {front missing : List Segment} {deepest : NodeId}
    (d : g.Deepest (Path.tokens rest) front missing deepest) (record : ρ) :
    g.attach path record = (do
      let extended ← g.extend deepest none missing
      match extended.answer with
      | .error e => return ⟨extended.graph, extended.changes, .error e⟩
      | .ok id =>
        let node ← extended.graph.node id
        if node.driver.isSome then
          return ⟨extended.graph, extended.changes, .error .alreadyExists⟩
        else
          return ⟨extended.graph.withDriver id node (some record),
            extended.changes ++ [.attached path], .ok id⟩) := by
  obtain ⟨top, htop, -, hoff, -⟩ := w.root
  obtain ⟨start, hstart⟩ := d.route.exists_end
  have hmissing : Path.tokens (Path.tailFrom start.offset path) = missing := by
    rw [d.route.offset w htop hstart, hoff]
    exact (Path.remains_belowRoot hbelow).tokens d.split
  have hnone : (Path.pieces rest).any
      (fun piece => Limits.maxFilenameLength < Path.byteLength piece) = false :=
    List.any_eq_false.mpr fun piece hp => by simpa using hshort piece hp
  obtain ⟨front', missing', id, hwalk, d'⟩ := exists_deepest w rest
  obtain ⟨-, -, rfl⟩ := d.unique w d'
  rw [attach, hbelow]
  dsimp only
  rw [hnone, if_neg (by simp), find_of_belowRoot hbelow, hwalk]
  simp only [node_eq_ok hstart, hmissing, bind, Except.bind]
  rfl

/-! ### How it ends -/

/-- Why a driver is not attached at a path, if it is not: `deepest` is the deepest node on the way,
and `missing` is the number of tokens beyond it. -/
def refusal? (g : Graph ρ) (path : Path) (deepest : NodeId) (missing : Nat) : Option Error :=
  if path ≠ [] ∧ path.head? ≠ some '/' then some .invalidArgument
  else if ∃ piece ∈ Path.pieces path, 256 < Path.byteLength piece then some .nameTooLong
  else if 0 < missing ∧ g.limit < g.live + missing then some .noMemory
  else if missing = 0 ∧ g.ownsDriver deepest then some .alreadyExists
  else none

/-- The same, with what follows from each case. -/
inductive Verdict (g : Graph ρ) (path : Path) (deepest : NodeId) (missing : Nat) :
    Option Error → Prop where
  | relative (h : Path.belowRoot? path = none) : Verdict g path deepest missing
      (some .invalidArgument)
  | long {rest : Path} {piece : Segment} (h : Path.belowRoot? path = some rest)
      (hmem : piece ∈ Path.pieces rest) (hlong : Limits.maxFilenameLength < Path.byteLength piece) :
      Verdict g path deepest missing (some .nameTooLong)
  | full {rest : Path} (h : Path.belowRoot? path = some rest)
      (hshort : ∀ piece ∈ Path.pieces rest, Path.byteLength piece ≤ Limits.maxFilenameLength)
      (hfull : g.limit < g.live + missing) : Verdict g path deepest missing (some .noMemory)
  | taken {rest : Path} (h : Path.belowRoot? path = some rest)
      (hshort : ∀ piece ∈ Path.pieces rest, Path.byteLength piece ≤ Limits.maxFilenameLength)
      (hnone : missing = 0) (hown : g.ownsDriver deepest = true) :
      Verdict g path deepest missing (some .alreadyExists)
  | free {rest : Path} (h : Path.belowRoot? path = some rest)
      (hshort : ∀ piece ∈ Path.pieces rest, Path.byteLength piece ≤ Limits.maxFilenameLength)
      (hroom : g.live + missing ≤ g.limit) (hfree : missing = 0 → g.ownsDriver deepest = false) :
      Verdict g path deepest missing none

theorem Numbered.verdict (n : g.Numbered) (path : Path) (deepest : NodeId) (missing : Nat) :
    g.Verdict path deepest missing (g.refusal? path deepest missing) := by
  rw [refusal?]
  split
  · exact .relative (Path.belowRoot?_eq_none.mpr ‹_›)
  · rename_i hsome
    obtain ⟨rest, hrest⟩ :=
      Option.ne_none_iff_exists'.mp (mt Path.belowRoot?_eq_none.mp hsome)
    have hpieces := Path.exists_piece_belowRoot hrest
      (P := fun piece => Limits.maxFilenameLength < Path.byteLength piece) (by simp)
    split
    · rename_i hlong
      obtain ⟨piece, hmem, hlong⟩ := hpieces.mp hlong
      exact .long hrest hmem hlong
    · rename_i hshort
      have hshort : ∀ piece ∈ Path.pieces rest,
          Path.byteLength piece ≤ Limits.maxFilenameLength := fun piece hmem =>
        Nat.not_lt.mp fun hlong => hshort (hpieces.mpr ⟨piece, hmem, hlong⟩)
      split
      · exact .full hrest hshort (And.right ‹_›)
      · rename_i hroom
        split
        · exact .taken hrest hshort (And.left ‹_›) (And.right ‹_›)
        · rename_i hfree
          have hlimit := n.limit
          exact .free hrest hshort (by omega) fun hnone =>
            Bool.eq_false_iff.mpr fun hown => hfree ⟨hnone, hown⟩

section

variable {path : Path} {front missing : List Segment} {deepest : NodeId}

/-- **A driver is refused** for the reason that could be told beforehand, and the graph is the one
of before. -/
theorem attach_refused (w : g.WellLinked) (n : g.Numbered)
    (d : g.Deepest (Path.tokens (path.drop 1)) front missing deepest) {e : Error}
    (he : g.refusal? path deepest missing.length = some e) (record : ρ) :
    ∃ h changes, g.attach path record = .ok ⟨h, changes, .error e⟩ ∧ h.Alike g ∧ h.WellLinked ∧
      h.Numbered := by
  have hverdict := n.verdict path deepest missing.length
  rw [he] at hverdict
  cases hverdict with
  | relative hnone =>
      exact ⟨g, [], by rw [attach, hnone], .refl g, w, n⟩
  | long hrest hmem hlong =>
      refine ⟨g, [], ?_, .refl g, w, n⟩
      rw [attach, hrest]
      exact if_pos (List.any_eq_true.mpr ⟨_, hmem, by simpa using hlong⟩)
  | full hrest hshort hfull =>
      rw [← Path.belowRoot?_eq_some hrest] at d
      obtain ⟨start, hstart⟩ := d.route.exists_end
      obtain ⟨h, changes, hext, hback⟩ := extend_full w n .here hstart
        (fun s hs => fits_of_mem_tokens hshort s (d.split ▸ List.mem_append_right _ hs))
        (d.stops w) hfull
      refine ⟨h, changes, ?_, hback⟩
      rw [attach_below w hrest hshort d, show (none : Option NodeId) = [].head? from rfl, hext]
      rfl
  | taken hrest hshort hnone hown =>
      rw [← Path.belowRoot?_eq_some hrest] at d
      obtain ⟨start, hstart⟩ := d.route.exists_end
      rw [ownsDriver_of_node? hstart] at hown
      refine ⟨g, [], ?_, .refl g, w, n⟩
      rw [attach_below w hrest hshort d, List.eq_nil_of_length_eq_zero hnone]
      simp only [extend, node_eq_ok hstart, hown, bind, Except.bind, pure, Except.pure, if_true]

/-- **A driver is attached** where nothing was said against it: below the deepest node there is a
chain of new nodes, and the driver is in the last of them. -/
theorem attach_accepted (w : g.WellLinked) (n : g.Numbered)
    (d : g.Deepest (Path.tokens (path.drop 1)) front missing deepest)
    (hnone : g.refusal? path deepest missing.length = none) (record : ρ) :
    ∃ created k last node changes, g.Extends deepest missing created last k ∧
      k.node? last = some node ∧ node.driver = none ∧
      g.attach path record = .ok ⟨k.withDriver last node (some record), changes, .ok last⟩ := by
  have hverdict := n.verdict path deepest missing.length
  rw [hnone] at hverdict
  cases hverdict with
  | free hrest hshort hroom hfree =>
      rw [← Path.belowRoot?_eq_some hrest] at d
      obtain ⟨start, hstart⟩ := d.route.exists_end
      obtain ⟨created, k, changes, last, hext, e⟩ := extend_ok w n hstart none
        (fun s hs => fits_of_mem_tokens hshort s (d.split ▸ List.mem_append_right _ hs))
        (d.stops w) hroom
      obtain ⟨node, hnode⟩ := (e.route hstart).exists_end
      have hd : node.driver = none := by
        rcases e.last_cases with ⟨hnil, rfl, rfl⟩ | hlast
        · have hown := hfree (by rw [hnil]; rfl)
          rw [ownsDriver_of_node? hnode] at hown
          exact Option.not_isSome_iff_eq_none.mp (by rw [hown]; simp)
        · obtain ⟨node', hnode', hd⟩ := (e.grown w).idle last (List.mem_reverse.mpr hlast)
          rw [hnode] at hnode'
          cases hnode'
          exact hd
      refine ⟨created, k, last, node, changes ++ [.attached path], e, hnode, hd, ?_⟩
      rw [attach_below w hrest hshort d, hext]
      simp only [node_eq_ok hnode, hd, bind, Except.bind, pure, Except.pure, Option.isSome_none,
        Bool.false_eq_true, if_false]

end

/-! ### What can be told from it -/

/-- Why a driver is not attached. -/
inductive Refusal (g : Graph ρ) (path : Path) : Error → Prop where
  /-- The path is relative. -/
  | relative (h : Path.belowRoot? path = none) : Refusal g path .invalidArgument
  /-- A piece of the path is too long. -/
  | long {rest : Path} {piece : Segment} (h : Path.belowRoot? path = some rest)
      (hmem : piece ∈ Path.pieces rest) (hlong : Limits.maxFilenameLength < Path.byteLength piece) :
      Refusal g path .nameTooLong
  /-- There is no room for the missing nodes, wherever one starts. -/
  | full {rest : Path} (h : Path.belowRoot? path = some rest)
      (hfull : ∀ front back j, Path.tokens rest = front ++ back → g.Route root front j →
        g.limit < g.live + back.length) : Refusal g path .noMemory
  /-- The path has a driver. -/
  | taken {rest : Path} {record : ρ} (h : Path.belowRoot? path = some rest)
      (hheld : g.Holds (Path.tokens rest) record) : Refusal g path .alreadyExists

/-- `h` is `g` with a driver at the end of a route, and with the nodes that were missing for it. -/
structure Attached (g : Graph ρ) (segments : List Segment) (record : ρ) (id : NodeId)
    (h : Graph ρ) : Prop where
  exists_grown : ∃ added k node, g.Grown added k ∧ k.WellLinked ∧ k.Numbered ∧
    k.Route root segments id ∧ k.node? id = some node ∧ node.driver = none ∧
    (∀ j ∈ added, k.Below j id) ∧ h = k.withDriver id node (some record)

/-- What was said against the path, without the deepest node. -/
theorem Deepest.refusal (w : g.WellLinked) (n : g.Numbered) {path : Path}
    {front missing : List Segment} {deepest : NodeId}
    (d : g.Deepest (Path.tokens (path.drop 1)) front missing deepest) {e : Error}
    (he : g.refusal? path deepest missing.length = some e) : g.Refusal path e := by
  have hverdict := n.verdict path deepest missing.length
  rw [he] at hverdict
  cases hverdict with
  | relative hnone => exact .relative hnone
  | long hrest hmem hlong => exact .long hrest hmem hlong
  | full hrest _ hfull =>
      rw [← Path.belowRoot?_eq_some hrest] at d
      refine .full hrest fun front' back j hsplit r => ?_
      obtain ⟨more, -, rfl⟩ := d.exists_between hsplit r
      rw [List.length_append]
      omega
  | taken hrest _ hnone hown =>
      rw [← Path.belowRoot?_eq_some hrest] at d
      have hroute := d.route
      rw [← List.append_nil front, ← List.eq_nil_of_length_eq_zero hnone, ← d.split] at hroute
      obtain ⟨record, hheld⟩ := (ownsDriver_iff w hroute).mp hown
      exact .taken hrest hheld

/-- **Attaching** either succeeds or is refused and leaves the nodes as they were. -/
theorem attach_cases (w : g.WellLinked) (n : g.Numbered) (path : Path) (record : ρ) :
    (∃ h changes e, g.attach path record = .ok ⟨h, changes, .error e⟩ ∧ g.Grown [] h ∧
      h.WellLinked ∧ h.Numbered ∧ g.Refusal path e) ∨
    ∃ rest h changes id, Path.belowRoot? path = some rest ∧
      g.attach path record = .ok ⟨h, changes, .ok id⟩ ∧
      g.Attached (Path.tokens rest) record id h := by
  obtain ⟨front, missing, deepest, -, d⟩ := exists_deepest w (path.drop 1)
  cases he : g.refusal? path deepest missing.length with
  | some e =>
      obtain ⟨h, changes, hattach, halike, wh, nh⟩ := attach_refused w n d he record
      exact .inl ⟨h, changes, e, hattach, halike.symm.grown, wh, nh, d.refusal w n he⟩
  | none =>
      obtain ⟨created, k, last, node, changes, e, hnode, hd, hattach⟩ :=
        attach_accepted w n d he record
      have hverdict := n.verdict path deepest missing.length
      rw [he] at hverdict
      cases hverdict with
      | free hrest _ _ _ =>
          obtain ⟨start, hstart⟩ := d.route.exists_end
          have hgrown := e.grown w
          have hroute : k.Route root (Path.tokens (path.drop 1)) last :=
            d.split ▸ (hgrown.route d.route).append (e.route hstart)
          rw [← Path.belowRoot?_eq_some hrest] at hroute
          exact .inr ⟨_, _, changes, last, hrest, hattach, ⟨created.reverse, k, node, hgrown,
            e.wellLinked w, e.numbered n, hroute, hnode, hd,
            fun j hj => e.below_last j (List.mem_reverse.mp hj), rfl⟩⟩

end VirtualFs.Mount.Graph
