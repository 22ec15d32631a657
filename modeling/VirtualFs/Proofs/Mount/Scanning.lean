import VirtualFs.Mount.Listing
import VirtualFs.Proofs.Mount.Entries
import VirtualFs.Proofs.Mount.Operations

/-!
# Looking up without halving

The plain way to look a path up: go down from the root, read through the children of each node for
the next token, note the nodes that are passed (`way`), and then answer from them what the mode asks
for (`pick`).  The look-up by halving, which keeps its best answer on the way and ends as soon as it
can, answers the same; and so does the look-up of the next child.

* `scan?_eq`: reading through the children finds the child that halving finds.
* `walk_eq_pick`: the walk answers from the nodes on the way.
* `operate_scanned`: every look-up is the plain one, after any operations.
-/

namespace VirtualFs.Mount.Graph

variable {ρ : Type} {g : Graph ρ} {id : NodeId} {node : Node ρ}

/-! ### The plain look-up -/

/-- The first of the children of `id` with the segment. -/
def scan? (g : Graph ρ) (id : NodeId) (segment : Segment) : Option NodeId :=
  (g.node? id).bind fun node => node.children.find? fun child => g.segment child = segment

/-- The nodes on the way down along the tokens, from `id` to where there is no child for the next
token. -/
def way (g : Graph ρ) (id : NodeId) : List Segment → List NodeId
  | [] => [id]
  | token :: tokens =>
    match g.scan? id token with
    | none => [id]
    | some child => id :: g.way child tokens

/-- What a way along the tokens answers: its last node if there was one for every token, its last
node in any case, or the last one on it that owns a driver. -/
def pick (g : Graph ρ) (mode : Mode) (tokens : List Segment) (way : List NodeId) : Option NodeId :=
  match mode with
  | .exact => if way.length = tokens.length + 1 then way.getLast? else none
  | .deepest => way.getLast?
  | .driver => (way.filter g.ownsDriver).getLast?

/-- The plain look-up of a path. -/
def locate (g : Graph ρ) (path : Path) (mode : Mode) : Option NodeId :=
  if path ≠ [] ∧ path.head? ≠ some '/' then none
  else g.pick mode (Path.tokens (path.drop 1)) (g.way root (Path.tokens (path.drop 1)))

/-- The first of the children of `dir` whose segment comes after `after`. -/
def scanAfter? (g : Graph ρ) (dir : NodeId) (after : Segment) : Option (Node ρ) := do
  let node ← g.node? dir
  let child ← node.children.find? fun child => Segment.order (g.segment child) after = .gt
  g.node? child

/-! ### Children -/

/-- Reading through the children finds what halving finds. -/
theorem WellLinked.scan?_eq (w : g.WellLinked) (h : g.node? id = some node) (segment : Segment) :
    g.scan? id segment = g.child? node segment := by
  rw [scan?, h, Option.bind_some, child?, Search.find?_eq (w.ascending h segment)]
  refine congrArg (List.find? · node.children) (funext fun child => ?_)
  rw [orderTo, beq_eq_decide]
  exact decide_eq_decide.mpr Segment.order_eq_iff.symm

/-- **The next child** is the first that reading through the children finds behind the name. -/
theorem WellLinked.childAfter_eq_scanAfter? (w : g.WellLinked) (dir : NodeId) (after : Segment) :
    g.childAfter dir (some after) = g.scanAfter? dir after := by
  rw [scanAfter?]
  cases h : g.node? dir with
  | none => rw [childAfter, h]; rfl
  | some node =>
      obtain ⟨l, r, hchildren, hafter, hl, hr⟩ := w.exists_behind h (some after)
      have hbehind : ∀ c, Segment.Behind (some after) (g.segment c) ↔
          Segment.order (g.segment c) after = .gt := fun c => by
        rw [Segment.behind_some, Segment.before_iff_gt]
      have hskip : l.find? (fun c => Segment.order (g.segment c) after = .gt) = none :=
        List.find?_eq_none.mpr fun c hc => by simpa [hbehind] using hl c hc
      rw [hafter]
      dsimp only [bind, Option.bind_some]
      rw [hchildren, List.find?_append, hskip, Option.none_or]
      cases r with
      | nil => rfl
      | cons c r =>
          have hc := (hbehind c).mp (hr c List.mem_cons_self)
          rw [List.find?_cons_of_pos (by simpa using hc)]
          rfl

/-! ### The walk -/

theorem candidate_eq_or (mode : Mode) (id : NodeId) (node : Node ρ) (best : Option NodeId) :
    candidate mode id node best = (candidate mode id node none).or best := by
  cases mode with
  | exact => rfl
  | deepest => rfl
  | driver =>
      rw [candidate, candidate]
      split <;> rfl

/-- The way from a node begins with it. -/
theorem exists_way_eq_cons (g : Graph ρ) (id : NodeId) (tokens : List Segment) :
    ∃ more, g.way id tokens = id :: more := by
  cases tokens with
  | nil => exact ⟨[], rfl⟩
  | cons token tokens =>
      rw [way]
      split
      · exact ⟨[], rfl⟩
      · exact ⟨_, rfl⟩

/-- What a way of one node answers, of which the walk has it for a candidate. -/
theorem pick_singleton (h : g.node? id = some node) (mode : Mode) (tokens : List Segment) :
    g.pick mode tokens [id] =
      if mode = .exact ∧ tokens = [] then some id else candidate mode id node none := by
  have hown := ownsDriver_of_node? h
  cases mode with
  | exact => cases tokens <;> simp [pick, candidate]
  | deepest => simp [pick, candidate]
  | driver => cases hd : node.driver.isSome <;> simp [pick, candidate, hown, hd]

/-- What a longer way answers, if not by its first node. -/
theorem pick_cons (h : g.node? id = some node) (mode : Mode) (token : Segment)
    (tokens : List Segment) {way : List NodeId} (hne : way ≠ []) :
    g.pick mode (token :: tokens) (id :: way) =
      (g.pick mode tokens way).or (candidate mode id node none) := by
  have hown := ownsDriver_of_node? h
  cases mode with
  | exact => simp [pick, candidate, List.getLast?_cons_of_ne_nil hne]
  | deepest =>
      have hlast := List.getLast?_eq_getLast_of_ne_nil hne
      rw [pick, pick, List.getLast?_cons_of_ne_nil hne, hlast]
      rfl
  | driver =>
      rw [pick, pick, candidate, List.filter_cons, hown]
      cases hd : node.driver.isSome with
      | true =>
        cases hw : (way.filter g.ownsDriver).getLast? <;> simp [List.getLast?_cons, hw]
      | false => simp

/-- **The walk** answers from the nodes on the way. -/
theorem walk_eq_pick (w : g.WellLinked) (h : g.node? id = some node) {mode : Mode}
    {best : Option NodeId} (hbest : mode = .exact → best = none) (rest : Path) :
    g.walk mode id best rest =
      (g.pick mode (Path.tokens rest) (g.way id (Path.tokens rest))).or best := by
  fun_induction walk g mode id best rest generalizing node with
  | case1 id best rest hnone =>
      rw [hnone] at h
      cases h
  | case2 id best rest node hn htake hmode =>
      rw [Path.tokens_of_takeToken?_none htake, way, pick_singleton hn, if_pos ⟨hmode, rfl⟩]
      rfl
  | case3 id best rest node hn htake hmode =>
      rw [Path.tokens_of_takeToken?_none htake, way, pick_singleton hn, if_neg (hmode ·.1),
        ← candidate_eq_or]
  | case4 id best rest passed hn token remainder htake child hchild ih =>
      obtain ⟨below, hb⟩ := w.isTree.exists_of_links ((w.child?_eq_some hn).mp hchild).1
      obtain ⟨more, hway⟩ := g.exists_way_eq_cons child (Path.tokens remainder)
      have hnext : mode = .exact → candidate mode id passed best = none := by
        rintro rfl
        exact hbest rfl
      rw [ih hb hnext, Path.tokens_of_takeToken? htake, way, w.scan?_eq hn, hchild]
      dsimp only
      rw [pick_cons hn _ _ _ (by rw [hway]; simp), Option.or_assoc, ← candidate_eq_or]
  | case5 id best rest node hn token remainder htake hchild hmode =>
      subst hmode
      rw [Path.tokens_of_takeToken? htake, way, w.scan?_eq hn, hchild]
      dsimp only
      rw [pick_singleton hn, if_neg (by simp), ← candidate_eq_or]
      exact (hbest rfl).symm
  | case6 id best rest node hn token remainder htake hchild hmode =>
      rw [Path.tokens_of_takeToken? htake, way, w.scan?_eq hn, hchild]
      dsimp only
      rw [pick_singleton hn, if_neg (hmode ·.1), ← candidate_eq_or]

/-- **The look-up** of any path is the plain one. -/
theorem WellLinked.find_eq_locate (w : g.WellLinked) (path : Path) (mode : Mode) :
    g.find path mode = g.locate path mode := by
  obtain ⟨top, htop, -⟩ := w.root
  rw [find, locate]
  cases hrest : Path.belowRoot? path with
  | none => rw [if_pos (Path.belowRoot?_eq_none.mp hrest)]
  | some rest =>
      have habsolute : ¬ (path ≠ [] ∧ path.head? ≠ some '/') := by
        rw [← Path.belowRoot?_eq_none, hrest]
        simp
      rw [if_neg habsolute, ← Path.belowRoot?_eq_some hrest]
      exact (walk_eq_pick w htop (fun _ => rfl) rest).trans Option.or_none

/-- **Every look-up**, of any path in any mode and of any next child, is the plain one after any
operations. -/
theorem operate_scanned [DecidableEq ρ] (limit : Nat) (operations : List (Operation ρ)) :
    ∃ g, operate limit operations = .ok g ∧
      (∀ path mode, g.find path mode = g.locate path mode) ∧
      ∀ dir after, g.childAfter dir (some after) = g.scanAfter? dir after := by
  have hstart : (withLimit limit : Graph ρ).Regular := regular_withLimit limit
  obtain ⟨g, hrun, r, -⟩ := hstart.foldlM_operation operations
  exact ⟨g, hrun, r.linked.find_eq_locate, r.linked.childAfter_eq_scanAfter?⟩

end VirtualFs.Mount.Graph
