import VirtualFs.Proofs.Mount.Operations
import VirtualFs.Proofs.Mount.Serving

/-!
# What remains of a path at a node

A look-up goes down from the root and drops a token of the path at every node (`Walks`).  What it
has left of the path at a node is not kept.  Whoever goes on from the node later takes the tail of
the path from the node's offset, which was counted when the node was made, and for another spelling
of the way to it.  The two are the same text for every path that begins at the root, clean or not
(`Remainder`).

* `exists_walks`: a look-up finds only nodes that it comes to.
* `Walks.remainder`: what it has left there is the tail of the path from the node's offset.
* `operate_resumable`: so it is in every graph that operations leave.
-/

namespace VirtualFs

namespace Path

/-- A path that begins at the root goes on below it. -/
theorem exists_belowRoot {path : Path} (h : isAbsolute path = true) :
    ∃ rest, belowRoot? path = some rest := by
  cases path with
  | nil => exact ⟨[], rfl⟩
  | cons c path => exact ⟨path, if_pos (of_decide_eq_true h)⟩

/-- `path` is the segments, a delimiter before each, and then the rest behind one more, unless
nothing follows the segments at all. -/
def GoesOn (path : Path) (segments : List Segment) (rest : Path) : Prop :=
  path = ofSegments segments ++ delimiter :: rest ∨ path = ofSegments segments ∧ rest = []

/-- One more segment in front. -/
theorem GoesOn.cons {path rest left : Path} {token : Segment} {segments : List Segment}
    (htake : takeToken? path = some (token, rest)) (h : GoesOn (delimiter :: rest) segments left)
    (hlast : rest = [] → segments = [] ∧ left = []) :
    GoesOn (delimiter :: path) (token :: segments) left := by
  obtain ⟨-, rfl | ⟨rfl, rfl⟩⟩ := takeToken?_eq_some htake
  · rcases h with heq | ⟨heq, rfl⟩
    · exact .inl (by rw [heq, ofSegments_cons]; simp)
    · exact .inr ⟨by rw [heq, ofSegments_cons], rfl⟩
  · obtain ⟨rfl, rfl⟩ := hlast rfl
    exact .inr ⟨by simp, rfl⟩

/-- What follows the segments begins one byte behind them. -/
theorem GoesOn.remains {path rest : Path} {segments : List Segment}
    (h : GoesOn path segments rest) : Remains path (1 + span segments) rest := by
  have hlength := byteLength_ofSegments segments
  rcases h with rfl | ⟨rfl, rfl⟩
  · refine .inl ⟨ofSegments segments ++ [delimiter], by simp, ?_⟩
    rw [byteLength_append, hlength, byteLength_cons, byteLength_delimiter, Nat.add_comm]
    rfl
  · exact .inr ⟨rfl, by omega⟩

end Path

namespace Mount.Graph

variable {ρ : Type} {g : Graph ρ} {id j : NodeId} {node : Node ρ} {rest left : Path}

/-- A look-up that is at `id`, with `rest` of the path to come, comes to `j` with `left` to come. -/
inductive Walks (g : Graph ρ) : NodeId → Path → NodeId → Path → Prop where
  | here {id : NodeId} {rest : Path} : Walks g id rest id rest
  | down {id child j : NodeId} {node : Node ρ} {token : Segment} {rest remainder left : Path}
      (hn : g.node? id = some node) (htake : Path.takeToken? rest = some (token, remainder))
      (hchild : g.child? node token = some child) (h : Walks g child remainder j left) :
      Walks g id rest j left

/-- A look-up of `path` comes to the node `id`, at the end of the segments `front`, and has `left`
of the path there. -/
structure Remainder (g : Graph ρ) (path : Path) (front : List Segment) (id : NodeId)
    (left : Path) : Prop where
  walks : g.Walks root (path.drop 1) id left
  /-- In every mode it goes on from the node with what it has left. -/
  resumes : ∀ mode, ∃ best, g.find path mode = g.walk mode id best left
  route : g.Route root front id
  /-- What it has left is what follows the segments of the node. -/
  text : path.GoesOn front left
  /-- Its tokens are those that follow the tokens on the way to the node. -/
  tokens : Path.tokens (path.drop 1) = front ++ Path.tokens left
  /-- It is the tail of the path from the offset of the node, where a character begins unless the
  offset is past the end. -/
  tail : ∃ node, g.node? id = some node ∧ Path.tailFrom node.offset path = left ∧
    path.Remains node.offset left

/-- Whatever a look-up of `path` finds, the path can be gone on with from the offset of the node. -/
structure Resumable (g : Graph ρ) (path : Path) : Prop where
  /-- Behind the deepest node come exactly the tokens for which there is no node. -/
  deepest : ∃ id front left, g.find path .deepest = some id ∧ g.Remainder path front id left ∧
    g.Deepest (Path.tokens (path.drop 1)) front (Path.tokens left) id
  found : ∀ {mode id}, g.find path mode = some id → ∃ front left, g.Remainder path front id left

/-! ### Where a look-up comes to -/

/-- At the end of the path a look-up goes no further. -/
theorem Walks.eq_of_nil (h : g.Walks id [] j left) : j = id ∧ left = [] := by
  cases h with
  | here => exact ⟨rfl, rfl⟩
  | down _ htake _ _ => cases (Path.takeToken?_nil).symm.trans htake

/-- In every mode a look-up goes on from where it has come to. -/
theorem Walks.exists_walk_eq (h : g.Walks id rest j left) (mode : Mode) (best : Option NodeId) :
    ∃ best', g.walk mode id best rest = g.walk mode j best' left := by
  induction h generalizing best with
  | here => exact ⟨best, rfl⟩
  | @down id child j node token rest remainder left hn htake hchild _ ih =>
      obtain ⟨best', heq⟩ := ih (candidate mode id node best)
      refine ⟨best', ?_⟩
      rw [walk, hn]
      dsimp only
      split
      · rename_i hnone
        cases hnone.symm.trans htake
      · rename_i hsome
        cases hsome.symm.trans htake
        rw [hchild]
        exact heq

/-- The best answer at a node is the node, or one from further up. -/
theorem walks_of_candidate {mode : Mode} {best : Option NodeId}
    (h : candidate mode id node best = some j) :
    (∃ left, g.Walks id rest j left) ∨ best = some j := by
  cases mode with
  | exact => exact .inr h
  | deepest =>
      cases h
      exact .inl ⟨rest, .here⟩
  | driver =>
      rw [candidate] at h
      split at h
      · cases h
        exact .inl ⟨rest, .here⟩
      · exact .inr h

/-- **A look-up finds** only nodes that it comes to. -/
theorem exists_walks {mode : Mode} {best : Option NodeId}
    (h : g.walk mode id best rest = some j) : (∃ left, g.Walks id rest j left) ∨ best = some j := by
  fun_induction walk g mode id best rest with
  | case1 id best rest hnone => cases h
  | case2 id best rest node hn htake hmode =>
      cases h
      exact .inl ⟨rest, .here⟩
  | case3 id best rest node hn htake hmode => exact walks_of_candidate h
  | case4 id best rest node hn token remainder htake child hchild ih =>
      rcases ih h with ⟨left, hwalks⟩ | hbest
      · exact .inl ⟨left, .down hn htake hchild hwalks⟩
      · exact walks_of_candidate hbest
  | case5 id best rest node hn token remainder htake hchild hmode => cases h
  | case6 id best rest node hn token remainder htake hchild hmode => exact walks_of_candidate h

/-! ### What it has left there -/

/-- **Going down** takes the segments of the node from the front of the path. -/
theorem Walks.exists_front (w : g.WellLinked) (h : g.Walks id rest j left)
    (hn : g.node? id = some node) : ∃ front, g.Route id front j ∧
      Path.tokens rest = front ++ Path.tokens left ∧
      Path.GoesOn (Path.delimiter :: rest) front left := by
  induction h generalizing node with
  | here => exact ⟨[], .here hn, rfl, .inl rfl⟩
  | down hn' htake hchild hwalks ih =>
      obtain ⟨hl, hs⟩ := (w.child?_eq_some hn').mp hchild
      obtain ⟨below, hb⟩ := w.isTree.exists_of_links hl
      obtain ⟨front, route, htokens, htext⟩ := ih hb
      refine ⟨_ :: front, .down hl hs route, ?_, htext.cons htake ?_⟩
      · rw [Path.tokens_of_takeToken? htake, htokens]
        rfl
      · rintro rfl
        obtain ⟨rfl, rfl⟩ := hwalks.eq_of_nil
        exact ⟨route.segments_unique w (.here hb), rfl⟩

/-- **What a look-up has left** at a node is the tail of the path from the node's offset. -/
theorem Walks.remainder (w : g.WellLinked) {path : Path} (hbelow : Path.belowRoot? path = some rest)
    (h : g.Walks root rest id left) : ∃ front, g.Remainder path front id left := by
  obtain ⟨top, htop, -, hoff, -⟩ := w.root
  obtain ⟨front, route, htokens, htext⟩ := h.exists_front w htop
  obtain ⟨node, hn⟩ := route.exists_end
  have hpath : path.GoesOn front left := by
    cases path with
    | nil =>
        cases hbelow
        obtain ⟨rfl, rfl⟩ := h.eq_of_nil
        rw [route.segments_unique w (.here htop)]
        exact .inr ⟨rfl, rfl⟩
    | cons c path =>
        rw [Path.belowRoot?] at hbelow
        split at hbelow
        · rename_i hc
          cases hbelow
          rwa [hc]
        · cases hbelow
  have hremains : path.Remains node.offset left := by
    rw [route.offset w htop hn, hoff]
    exact hpath.remains
  have hrest := Path.belowRoot?_eq_some hbelow
  refine ⟨front, ⟨hrest ▸ h, fun mode => ?_, route, hpath, hrest ▸ htokens,
    node, hn, hremains.tailFrom, hremains⟩⟩
  rw [find_of_belowRoot hbelow]
  exact h.exists_walk_eq mode none

/-- **Every path from the root**, clean or not, can be gone on with from what is found of it. -/
theorem WellLinked.resumable (w : g.WellLinked) {path : Path}
    (hbelow : Path.belowRoot? path = some rest) : g.Resumable path := by
  have hfound : ∀ {mode id}, g.find path mode = some id →
      ∃ front left, g.Remainder path front id left := by
    intro mode id hfind
    rw [find_of_belowRoot hbelow] at hfind
    rcases exists_walks hfind with ⟨left, hwalks⟩ | hnone
    · obtain ⟨front, hremainder⟩ := hwalks.remainder w hbelow
      exact ⟨front, left, hremainder⟩
    · cases hnone
  obtain ⟨front, missing, id, hwalk, d⟩ := exists_deepest w rest
  have hfind := (find_of_belowRoot hbelow .deepest).trans hwalk
  obtain ⟨front', left, hremainder⟩ := hfound hfind
  refine ⟨⟨id, front', left, hfind, hremainder, ?_⟩, hfound⟩
  -- the tokens of what is left are those for which there is no node
  cases hremainder.route.segments_unique w d.route
  have htokens := hremainder.tokens
  rw [Path.belowRoot?_eq_some hbelow] at d
  rw [d.split] at htokens
  rw [← List.append_cancel_left htokens]
  exact d

/-- **After any operations** every path that is empty or begins with a delimiter can be gone on with
from what is found of it. -/
theorem operate_resumable [DecidableEq ρ] (limit : Nat) (operations : List (Operation ρ))
    (path : Path) (habsolute : Path.isAbsolute path = true) :
    ∃ g, operate limit operations = .ok g ∧ g.Resumable path := by
  have hstart : (withLimit limit : Graph ρ).Regular := regular_withLimit limit
  obtain ⟨g, hrun, r, -⟩ := hstart.foldlM_operation operations
  obtain ⟨rest, hbelow⟩ := Path.exists_belowRoot habsolute
  exact ⟨g, hrun, r.linked.resumable hbelow⟩

/-- Two delimiters side by side, one at the end, and characters of more than one byte. -/
theorem operate_resumable_unclean : Path.isAbsolute "/é//日/x/".toList = true ∧ ∃ g : Graph Nat,
    operate 9 [.attach "/é//".toList 1, .attach "/é//日".toList 2, .detach 3 2] = .ok g ∧
      g.Resumable "/é//日/x/".toList :=
  ⟨by decide, operate_resumable 9 _ _ (by decide)⟩

end Mount.Graph

end VirtualFs
