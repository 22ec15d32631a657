import VirtualFs.Proofs.Mount.Canonical
import VirtualFs.Proofs.Mount.Listing
import VirtualFs.Proofs.Mount.Serving
import VirtualFs.Proofs.Path.Canonical

/-!
# The names of nodes

A path is looked up downwards, token by token, and the path of a node is read upwards, along the
parents; the offset of a node is kept with it from its creation on.  As long as drivers are attached
at clean absolute paths (`Path.Proper`), every node has a proper path and is found at it, and its
offset counts the bytes of that path.

* `Tidy`: drivers are held at segments only; `Tidy.route`: so every node is at the end of segments.
* `Tidy.operation`: an operation at a proper path keeps a graph tidy.
* `Tidy.inverse`: in a tidy graph the look-up of a path and the path of a node undo each other.
-/

namespace VirtualFs

namespace Path

/-- A path is clean and absolute. -/
def Proper (path : Path) : Prop := clean path = path ∧ isAbsolute path = true

instance (path : Path) : Decidable path.Proper := inferInstanceAs (Decidable (_ ∧ _))

/-- How a clean path is written: the root is not left empty. -/
def shown (path : Path) : Path := if path.isEmpty then [delimiter] else path

/-- A proper path is made of segments. -/
theorem Proper.eq {path : Path} (h : path.Proper) : path = ofSegments (segments path) := by
  obtain ⟨hclean, habs⟩ := h
  rw [← hclean] at habs
  exact hclean.symm.trans (clean_eq_ofSegments habs)

theorem proper_ofSegments {segs : List Segment} (h : ∀ s ∈ segs, s ≠ [] ∧ delimiter ∉ s) :
    (ofSegments segs).Proper := by
  refine ⟨clean_ofSegments h, ?_⟩
  cases segs <;> simp [isAbsolute]

/-- A path that a caller may use is proper in its clean form. -/
theorem proper_of_absolute? {path used : Path} (h : absolute? path = some used) : used.Proper :=
  absolute?_eq_some h ▸ proper_ofSegments fun _ => mem_segments

theorem isEmpty_ofSegments (segs : List Segment) : (ofSegments segs).isEmpty = segs.isEmpty := by
  cases segs <;> rfl

end Path

namespace Mount.Graph

variable {ρ : Type} {g h : Graph ρ}

/-- The look-up of the root by one delimiter finds what that by the empty path does. -/
theorem find_shown (g : Graph ρ) (path : Path) (mode : Mode) :
    g.find path.shown mode = g.find path mode := by
  cases path <;> rfl

/-! ### Tidy graphs -/

/-- Drivers are held at segments, which are not empty and have no delimiters in them. -/
def Tidy (g : Graph ρ) : Prop :=
  ∀ segments record, g.Holds segments record → ∀ s ∈ segments, s ≠ [] ∧ Path.delimiter ∉ s

theorem tidy_withLimit (limit : Nat) : (withLimit limit : Graph ρ).Tidy := by
  intro segments record hheld
  cases (represents_withLimit limit segments record).mp hheld

namespace Tidy

/-- Where nothing more is held, the graph stays tidy. -/
theorem mono (t : g.Tidy) (hle : ∀ segments record, h.Holds segments record →
    g.Holds segments record) : h.Tidy :=
  fun segments record hheld => t segments record (hle segments record hheld)

/-- A driver attached at the end of segments keeps the graph tidy. -/
theorem attached (t : g.Tidy) {segments : List Segment} {record : ρ} {id : NodeId}
    (ha : g.Attached segments record id h)
    (hs : ∀ s ∈ segments, s ≠ [] ∧ Path.delimiter ∉ s) : h.Tidy := by
  intro other r hheld
  rw [ha.holds_iff] at hheld
  split at hheld
  · rename_i he
    exact he ▸ hs
  · exact t other r hheld

/-- **Every node is at the end of segments**: it is the root or on the way to a driver. -/
theorem route (t : g.Tidy) (r : g.Regular) {segments : List Segment} {id : NodeId}
    (route : g.Route root segments id) : ∀ s ∈ segments, s ≠ [] ∧ Path.delimiter ∉ s := by
  intro s hmem
  rcases r.exists_route_iff_holds.mp ⟨id, route⟩ with rfl | ⟨key, record, hheld, hpre⟩
  · cases hmem
  · exact t key record hheld s (hpre.subset hmem)

/-- **Attaching** at a proper path keeps a graph tidy, whether it succeeds or not. -/
theorem attach (t : g.Tidy) (r : g.Regular) {path : Path} (hpath : path.Proper) {record : ρ}
    {changes : List Change} {answer : Except Error NodeId}
    (hattach : g.attach path record = .ok ⟨h, changes, answer⟩) : h.Tidy := by
  have hs : ∀ s ∈ Path.segments path, s ≠ [] ∧ Path.delimiter ∉ s := fun _ => Path.mem_segments
  rw [hpath.eq] at hattach
  rcases r.attach_clean hs record with
    ⟨h', changes', e, heq, -, halike, -⟩ | ⟨h', changes', id, heq, -, -, ha⟩
  · cases hattach.symm.trans heq
    exact t.mono fun segments record' => (holds_congr halike.node).mp
  · cases hattach.symm.trans heq
    exact t.attached ha hs

/-- **Detaching** keeps a graph tidy. -/
theorem detach [DecidableEq ρ] (t : g.Tidy) (r : g.Regular) {id : NodeId} {record : ρ}
    {changes : List Change} {answer : Except Error ρ}
    (hdetach : g.detach id record = .ok ⟨h, changes, answer⟩) : h.Tidy := by
  by_cases howner : ∃ node, g.node? id = some node ∧ node.driver = some record
  · obtain ⟨node, hn, hd⟩ := howner
    obtain ⟨gone, changes', heq, hgone, -, -⟩ := r.detach hn hd
    obtain ⟨top, htop, -⟩ := r.linked.root
    obtain ⟨segments, route⟩ := r.linked.exists_route htop (r.linked.below_root hn)
    cases hdetach.symm.trans heq
    exact t.mono fun other record' hheld => ((r.holds_detached route hn hgone).mp hheld).2
  · cases hdetach.symm.trans (detach_notFound fun node hn hd => howner ⟨node, hn, hd⟩)
    exact t

end Tidy

/-- An operation attaches drivers at proper paths only. -/
def Operation.Proper : Operation ρ → Prop
  | .attach path _ => path.Proper
  | .detach _ _ | .clean _ => True

instance : (o : Operation ρ) → Decidable o.Proper
  | .attach path _ => inferInstanceAs (Decidable path.Proper)
  | .detach _ _ | .clean _ => inferInstanceAs (Decidable True)

/-- **One operation** at a proper path keeps a graph tidy. -/
theorem Tidy.operation [DecidableEq ρ] (t : g.Tidy) (r : g.Regular) {o : Operation ρ}
    (ho : o.Proper) (hop : g.operation o = .ok h) : h.Tidy := by
  cases o with
  | attach path record =>
      rw [Graph.operation] at hop
      cases hattach : g.attach path record with
      | error e => rw [hattach] at hop; cases hop
      | ok edit =>
          rw [hattach] at hop
          cases hop
          exact t.attach r ho hattach
  | detach id record =>
      rw [Graph.operation] at hop
      cases hdetach : g.detach id record with
      | error e => rw [hdetach] at hop; cases hop
      | ok edit =>
          rw [hdetach] at hop
          cases hop
          exact t.detach r hdetach
  | clean id =>
      rw [Graph.operation, r.prune id] at hop
      cases hop
      exact t

/-- Operations at proper paths leave a tidy graph. -/
theorem Tidy.foldlM_operation [DecidableEq ρ] (t : g.Tidy) (r : g.Regular)
    {operations : List (Operation ρ)} (ho : ∀ o ∈ operations, o.Proper)
    (hrun : operations.foldlM Graph.operation g = .ok h) : h.Tidy := by
  induction operations generalizing g with
  | nil =>
      cases hrun
      exact t
  | cons o operations ih =>
      obtain ⟨i, hop, ri, -⟩ := r.operation o
      rw [List.foldlM_cons, hop] at hrun
      exact ih (t.operation r (ho o List.mem_cons_self) hop) ri
        (fun o' h' => ho o' (List.mem_cons_of_mem _ h')) hrun

/-! ### Down and up again -/

/-- Looking a path up and reading the path of a node undo each other. -/
structure Inverse (g : Graph ρ) : Prop where
  /-- Every node has a proper path, and is found at it, also where the root is one delimiter. -/
  found : ∀ {id node}, g.node? id = some node → ∃ path : Path, path.Proper ∧
    g.pathOf id = .ok path.shown ∧ g.find path .exact = some id ∧
    g.find path.shown .exact = some id
  /-- What is found at a proper path is a node with this path, and its offset is one more than the
  bytes of the path. -/
  named : ∀ {path : Path} {id}, path.Proper → g.find path .exact = some id →
    g.pathOf id = .ok path.shown ∧
    ∃ node, g.node? id = some node ∧ node.offset = Path.byteLength path + 1
  /-- Different nodes have different paths. -/
  distinct : ∀ {a b nodeA nodeB path}, g.node? a = some nodeA → g.node? b = some nodeB →
    g.pathOf a = .ok path → g.pathOf b = .ok path → a = b

/-- The path of a node at the end of a route is written as that of its segments. -/
theorem pathOf_route (w : g.WellLinked) {segments : List Segment} {id : NodeId}
    (r : g.Route root segments id) : g.pathOf id = .ok (Path.ofSegments segments).shown := by
  rw [pathOf_eq w r, Path.shown, Path.isEmpty_ofSegments]

/-- **In a tidy graph** looking up and reading upwards undo each other. -/
theorem Tidy.inverse (t : g.Tidy) (r : g.Regular) : g.Inverse := by
  have w := r.linked
  obtain ⟨top, htop, -, hoff, -⟩ := w.root
  have found : ∀ {id node}, g.node? id = some node → ∃ path : Path, path.Proper ∧
      g.pathOf id = .ok path.shown ∧ g.find path .exact = some id ∧
      g.find path.shown .exact = some id := by
    intro id node hn
    obtain ⟨segments, route⟩ := w.exists_route htop (w.below_root hn)
    have hs := t.route r route
    have hfind := (find_ofSegments w hs).mpr route
    exact ⟨_, Path.proper_ofSegments hs, pathOf_route w route, hfind,
      (find_shown g _ _).trans hfind⟩
  refine ⟨found, ?_, ?_⟩
  · intro path id hproper hfind
    have hs : ∀ s ∈ Path.segments path, s ≠ [] ∧ Path.delimiter ∉ s := fun _ => Path.mem_segments
    rw [hproper.eq] at hfind ⊢
    have route := (find_ofSegments w hs).mp hfind
    obtain ⟨node, hn⟩ := route.exists_end
    refine ⟨pathOf_route w route, node, hn, ?_⟩
    rw [route.offset w htop hn, hoff, Path.byteLength_ofSegments, Nat.add_comm]
  · intro a b nodeA nodeB path ha hb hpa hpb
    obtain ⟨pa, -, hshown, -, hfa⟩ := found ha
    obtain ⟨pb, -, hshown', -, hfb⟩ := found hb
    have heq : pa.shown = pb.shown := by
      rw [hpa] at hshown
      rw [hpb] at hshown'
      exact (Except.ok.inj hshown).symm.trans (Except.ok.inj hshown')
    rw [heq, hfb] at hfa
    exact (Option.some.inj hfa).symm

/-- **Looking up and reading upwards undo each other** in every graph that any operations with
proper paths leave. -/
theorem operate_inverse [DecidableEq ρ] (limit : Nat) (operations : List (Operation ρ))
    (hproper : ∀ o ∈ operations, o.Proper) :
    ∃ g, operate limit operations = .ok g ∧ g.Inverse := by
  have hstart : (withLimit limit : Graph ρ).Regular := regular_withLimit limit
  obtain ⟨g, hrun, r, -⟩ := hstart.foldlM_operation operations
  exact ⟨g, hrun, ((tidy_withLimit limit).foldlM_operation hstart hproper hrun).inverse r⟩

/-- A node that was taken out, and one that came in its place. -/
theorem operate_inverse_reused : ∃ g : Graph Nat,
    operate 9 [.attach "/a/b".toList 1, .attach "/c".toList 2, .detach 2 1, .clean 0,
      .attach "/c/é/d".toList 3] = .ok g ∧ g.Inverse :=
  operate_inverse 9 _ (by decide)

end Mount.Graph

end VirtualFs
