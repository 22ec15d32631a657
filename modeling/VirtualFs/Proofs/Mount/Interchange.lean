import VirtualFs.Proofs.Mount.Detaching
import VirtualFs.Proofs.Mount.Renumbering

/-!
# Graphs that answer alike

A regular graph and one that is `Alike` answer every call the same, node numbers included, and are
alike again afterwards.  So no sequence of calls tells them apart (`Alike.interchangeable`).

The two may have made different ways to where they are: numbers that the one has given out and taken
back may be fresh in the other.

* `Extends.alike`: the same chain is added to both, with the same numbers.
* `Alike.call`: one call.
* `Alike.interchangeable`: any calls.
-/

namespace VirtualFs.Mount.Graph

variable {ρ : Type} {g h : Graph ρ}

/-! ### Calls and their answers -/

/-- A call on a mount graph. -/
inductive Call (ρ : Type) where
  | attach (path : Path) (record : ρ)
  | detach (id : NodeId) (record : ρ)
  | clean (id : NodeId)
  | find (path : Path) (mode : Mode)
  | node (id : NodeId)
  | path (id : NodeId)
  | next (dir : NodeId) (after : Option Segment)
  | mounts
  | count

/-- What a call answers. -/
inductive Answer (ρ : Type) where
  | attached (answer : Except Error NodeId)
  | detached (answer : Except Error ρ)
  | cleaned (stays : Bool)
  | found (id : Option NodeId)
  | node (node : Option (Node ρ))
  | path (path : Path)
  | mounts (paths : List Path)
  | count (nodes : Nat)

/-- What a call answers, and the graph that it leaves. -/
def call [DecidableEq ρ] (g : Graph ρ) : Call ρ → Checked (Answer ρ × Graph ρ)
  | .attach path record => do
    let edit ← g.attach path record
    return (.attached edit.answer, edit.graph)
  | .detach id record => do
    let edit ← g.detach id record
    return (.detached edit.answer, edit.graph)
  | .clean id => do
    let edit ← g.prune id
    return (.cleaned edit.answer, edit.graph)
  | .find path mode => return (.found (g.find path mode), g)
  | .node id => return (.node (g.node? id), g)
  | .path id => return (.path (← g.pathOf id), g)
  | .next dir after => return (.node (g.childAfter dir after), g)
  | .mounts => return (.mounts (← g.mountPaths), g)
  | .count => return (.count g.live, g)

/-- What calls answer, one after the other. -/
def calls [DecidableEq ρ] (g : Graph ρ) : List (Call ρ) → Checked (List (Answer ρ))
  | [] => return []
  | c :: rest => do
    let (answer, g) ← g.call c
    return answer :: (← g.calls rest)

/-- No calls tell the graphs apart. -/
def Interchangeable [DecidableEq ρ] (g h : Graph ρ) : Prop :=
  ∀ cs, ∃ answers, g.calls cs = .ok answers ∧ h.calls cs = .ok answers

/-! ### What is the same in both -/

namespace Alike

theorem links (a : g.Alike h) : g.Links = h.Links := by
  funext id child
  rw [Links, Links, a.node?_eq]

theorem below (a : g.Alike h) : g.Below = h.Below := by
  rw [Below, Below, a.links]

theorem segment (a : g.Alike h) (id : NodeId) : g.segment id = h.segment id := by
  rw [Graph.segment, Graph.segment, a.node]

theorem ownsDriver (a : g.Alike h) (id : NodeId) : g.ownsDriver id = h.ownsDriver id := by
  rw [Graph.ownsDriver, Graph.ownsDriver, a.node]

theorem wellLinked (a : g.Alike h) (w : g.WellLinked) : h.WellLinked where
  root := a.node?_eq ▸ w.root
  up := a.node?_eq ▸ w.up
  down := a.node?_eq ▸ w.down
  sorted hn := by
    rw [← a.node] at hn
    simpa only [a.segment] using w.sorted hn
  segment := a.node?_eq ▸ w.segment

theorem regular (a : g.Alike h) (r : g.Regular) (n : h.Numbered) : h.Regular where
  linked := a.wellLinked r.linked
  numbered := n
  fruitful {id node} hn hne := by
    rw [← a.node] at hn
    obtain ⟨j, hb, hown⟩ := r.fruitful hn hne
    exact ⟨j, a.below ▸ hb, a.ownsDriver j ▸ hown⟩

theorem route (a : g.Alike h) {id j : NodeId} {segments : List Segment}
    (r : g.Route id segments j) : h.Route id segments j :=
  a.grown.route r

theorem deepest (a : g.Alike h) {tokens front missing : List Segment} {id : NodeId}
    (d : g.Deepest tokens front missing id) : h.Deepest tokens front missing id where
  split := d.split
  route := a.route d.route
  beyond more j hne hpre r := d.beyond more j hne hpre (a.symm.route r)

theorem refusal? (a : g.Alike h) (path : Path) (deepest : NodeId) (missing : Nat) :
    g.refusal? path deepest missing = h.refusal? path deepest missing := by
  rw [Graph.refusal?, Graph.refusal?, a.limit, a.live, a.ownsDriver]

/-- Every node has the number it has. -/
theorem renumbering (a : g.Alike h) : Renumbering (fun id => id) g h where
  root := rfl
  node {id node} hn := by
    rw [← a.node, hn]
    simp [Node.rename]
  onto {j node} hn := ⟨j, by rw [a.node, hn]; rfl, rfl⟩
  injective _ _ e := e

end Alike

theorem map_rename_id (node : Option (Node ρ)) : node.map (Node.rename fun id => id) = node := by
  cases node <;> simp [Node.rename]

/-- A dead number has the path of the root. -/
theorem pathOf_dead {id : NodeId} (h : g.node? id = none) :
    g.pathOf id = .ok [Path.delimiter] := by
  rw [pathOf, ascend, h]
  rfl

/-! ### Changing both -/

/-- A new node stands at one place among its siblings. -/
theorem Inserted.place_unique {parent new new' : NodeId} {above : Node ρ} {l r l' r' : List NodeId}
    {segment : Segment} {k k' : Graph ρ} (a : g.Alike h)
    (i : g.Inserted parent above l r segment new k)
    (i' : h.Inserted parent above l' r' segment new' k') : l = l' ∧ r = r' := by
  have hnot : ∀ c : NodeId, Segment.Before (g.segment c) segment →
      ¬ Segment.Before segment (g.segment c) := fun c hlt hgt => (hlt.trans hgt).ne rfl
  rcases List.append_eq_append_iff.mp (i.children.symm.trans i'.children) with
    ⟨more, rfl, rfl⟩ | ⟨more, rfl, rfl⟩
  · cases more with
    | nil => simp
    | cons c more =>
        refine absurd (i.greater c (by simp)) (hnot c ?_)
        rw [a.segment]
        exact i'.smaller c (by simp)
  · cases more with
    | nil => simp
    | cons c more =>
        refine absurd ?_ (hnot c (i.smaller c (by simp)))
        rw [a.segment]
        exact i'.greater c (by simp)

/-- A new node makes graphs that are alike to graphs that are alike. -/
theorem Inserted.alike {parent new new' : NodeId} {above above' : Node ρ}
    {l r l' r' : List NodeId} {segment : Segment} {k k' : Graph ρ} (a : g.Alike h)
    (i : g.Inserted parent above l r segment new k)
    (i' : h.Inserted parent above' l' r' segment new' k')
    (hsupply : g.supply = Stream'.cons new k.supply)
    (hsupply' : h.supply = Stream'.cons new' k'.supply)
    (hlimit : k.limit = g.limit) (hlimit' : k'.limit = h.limit) (hlive : k.live = g.live + 1)
    (hlive' : k'.live = h.live + 1) : new = new' ∧ k.Alike k' := by
  obtain ⟨rfl, hrest⟩ := Stream'.cons_injective2 (hsupply.symm.trans (a.supply.trans hsupply'))
  have habove := i.found
  rw [a.node, i'.found] at habove
  cases habove
  obtain ⟨rfl, rfl⟩ := i.place_unique a i'
  refine ⟨rfl, fun id => ?_, hrest, by rw [hlimit, hlimit', a.limit], by rw [hlive, hlive', a.live]⟩
  rw [i.node, i'.node, a.node]

/-- **The same chain**, with the same numbers, makes them alike again. -/
theorem Extends.alike {current last last' : NodeId} {segments : List Segment}
    {created created' : List NodeId} {k k' : Graph ρ} (a : g.Alike h)
    (e : g.Extends current segments created last k)
    (e' : h.Extends current segments created' last' k') :
    created = created' ∧ last = last' ∧ k.Alike k' := by
  induction e generalizing h created' with
  | here =>
      cases e'
      exact ⟨rfl, rfl, a⟩
  | down i _ _ hsupply hlimit hlive _ ih =>
      cases e' with
      | down i' _ _ hsupply' hlimit' hlive' rest' =>
          obtain ⟨rfl, a'⟩ := i.alike a i' hsupply hsupply' hlimit hlimit' hlive hlive'
          obtain ⟨rfl, rfl, ak⟩ := ih a' rest'
          exact ⟨rfl, rfl, ak⟩

namespace Alike

variable (a : g.Alike h) (rg : g.Regular) (rh : h.Regular)

include a rg rh

/-- **Attaching** gives the same answer. -/
theorem attach (path : Path) (record : ρ) : ∃ g' h' changes changes' answer,
    g.attach path record = .ok ⟨g', changes, answer⟩ ∧
    h.attach path record = .ok ⟨h', changes', answer⟩ ∧ g'.Alike h' := by
  obtain ⟨front, missing, deepest, -, d⟩ := exists_deepest rg.linked (path.drop 1)
  have d' := a.deepest d
  have hsame := a.refusal? path deepest missing.length
  cases he : g.refusal? path deepest missing.length with
  | some e =>
      obtain ⟨g', changes, hg, ag, -⟩ := attach_refused rg.linked rg.numbered d he record
      obtain ⟨h', changes', hh, ah, -⟩ :=
        attach_refused rh.linked rh.numbered d' (hsame.symm.trans he) record
      exact ⟨g', h', changes, changes', .error e, hg, hh, ag.trans (a.trans ah.symm)⟩
  | none =>
      obtain ⟨created, k, last, node, changes, e, hn, -, hg⟩ :=
        attach_accepted rg.linked rg.numbered d he record
      obtain ⟨created', k', last', node', changes', e', hn', -, hh⟩ :=
        attach_accepted rh.linked rh.numbered d' (hsame.symm.trans he) record
      obtain ⟨rfl, rfl, ak⟩ := e.alike a e'
      rw [← ak.node, hn] at hn'
      cases hn'
      exact ⟨_, _, changes, changes', .ok last, hg, hh, ak.write hn _⟩

/-- **Detaching** gives the same answer. -/
theorem detach [DecidableEq ρ] (id : NodeId) (record : ρ) : ∃ g' h' changes changes' answer,
    g.detach id record = .ok ⟨g', changes, answer⟩ ∧
    h.detach id record = .ok ⟨h', changes', answer⟩ ∧ g'.Alike h' := by
  by_cases howner : ∃ node, g.node? id = some node ∧ node.driver = some record
  · obtain ⟨node, hn, hd⟩ := howner
    have hn' : h.node? id = some node := (a.node id).symm.trans hn
    obtain ⟨gone, changes, hg, hb, rg', horder⟩ := rg.detach hn hd
    obtain ⟨gone', changes', hh, hb', rh', horder'⟩ := rh.detach hn' hd
    -- the same nodes go, and in the same order
    have hmem : ∀ j, j ∈ gone ↔ j ∈ gone' := by
      intro j
      rw [rg.mem_gone_iff hn hb rg', rh.mem_gone_iff hn' hb' rh', a.below]
      simp only [a.ownsDriver]
    rw [← a.below] at horder'
    have hgone : gone = gone' :=
      ((List.perm_ext_iff_of_nodup hb.nodup hb'.nodup).mpr hmem).eq_of_pairwise
        (fun x y _ _ hxy hyx => rg.linked.isTree.below_antisymm hyx hxy) horder horder'
    subst hgone
    exact ⟨_, _, changes, changes', .ok record, hg, hh, (a.write hn _).without gone⟩
  · refine ⟨g, h, [], [], .error .notFound, detach_notFound fun node hn hd => ?_,
      detach_notFound fun node hn hd => ?_, a⟩
    · exact howner ⟨node, hn, hd⟩
    · exact howner ⟨node, (a.node id).trans hn, hd⟩

/-- **Listing** gives the same answers. -/
theorem path (id : NodeId) : ∃ path, g.pathOf id = .ok path ∧ h.pathOf id = .ok path := by
  cases hn : g.node? id with
  | none => exact ⟨_, pathOf_dead hn, pathOf_dead ((a.node id).symm.trans hn)⟩
  | some node =>
      obtain ⟨top, htop, -⟩ := rg.linked.root
      obtain ⟨segments, route⟩ := rg.linked.exists_route htop (rg.linked.below_root hn)
      exact ⟨_, pathOf_eq rg.linked route, pathOf_eq rh.linked (a.route route)⟩

omit rh in
theorem next (dir : NodeId) (after : Option Segment) :
    h.childAfter dir after = g.childAfter dir after := by
  cases hn : g.node? dir with
  | none =>
      have hn' := (a.node dir).symm.trans hn
      rw [childAfter, childAfter, hn, hn']
      rfl
  | some node =>
      have hnext := a.renumbering.childAfter rg.linked hn after
      rwa [map_rename_id] at hnext

omit rh in
theorem find (path : Path) (mode : Mode) : h.find path mode = g.find path mode := by
  rw [a.renumbering.find rg.linked path mode]
  exact Option.map_id'

/-- **One call** has the same answer, and leaves graphs that are alike. -/
theorem call [DecidableEq ρ] (c : Call ρ) : ∃ answer g' h', g.call c = .ok (answer, g') ∧
    h.call c = .ok (answer, h') ∧ g'.Alike h' := by
  cases c with
  | attach path record =>
      obtain ⟨g', h', changes, changes', answer, hg, hh, a'⟩ := a.attach rg rh path record
      exact ⟨.attached answer, g', h', by rw [Graph.call, hg]; rfl, by rw [Graph.call, hh]; rfl, a'⟩
  | detach id record =>
      obtain ⟨g', h', changes, changes', answer, hg, hh, a'⟩ := a.detach rg rh id record
      exact ⟨.detached answer, g', h', by rw [Graph.call, hg]; rfl, by rw [Graph.call, hh]; rfl, a'⟩
  | clean id =>
      refine ⟨.cleaned (g.node? id).isSome, g, h, by rw [Graph.call, rg.prune id]; rfl, ?_, a⟩
      rw [Graph.call, rh.prune id, a.node]
      rfl
  | find path mode => exact ⟨_, g, h, rfl, by rw [Graph.call, a.find rg]; rfl, a⟩
  | node id => exact ⟨_, g, h, rfl, by rw [Graph.call, ← a.node]; rfl, a⟩
  | path id =>
      obtain ⟨path, hg, hh⟩ := a.path rg rh id
      exact ⟨.path path, g, h, by rw [Graph.call, hg]; rfl, by rw [Graph.call, hh]; rfl, a⟩
  | next dir after => exact ⟨_, g, h, rfl, by rw [Graph.call, a.next rg]; rfl, a⟩
  | mounts =>
      obtain ⟨paths, hg⟩ := exists_mountPaths rg.linked
      have hh := (a.renumbering.mountPaths rg.linked rh.linked).trans hg
      exact ⟨.mounts paths, g, h, by rw [Graph.call, hg]; rfl, by rw [Graph.call, hh]; rfl, a⟩
  | count => exact ⟨_, g, h, rfl, by rw [Graph.call, ← a.live]; rfl, a⟩

end Alike

theorem Regular.of_operation [DecidableEq ρ] (r : g.Regular) {o : Operation ρ}
    (hop : g.operation o = .ok h) : h.Regular := by
  obtain ⟨h', hop', rh, -⟩ := r.operation o
  rw [hop] at hop'
  cases hop'
  exact rh

/-- Every call leaves a regular graph. -/
theorem Regular.call [DecidableEq ρ] (r : g.Regular) {c : Call ρ} {answer : Answer ρ}
    (hcall : g.call c = .ok (answer, h)) : h.Regular := by
  have hchange : ∀ {α : Type} {x : Checked (Edit ρ α)} {f : α → Answer ρ},
      (do let edit ← x; return (f edit.answer, edit.graph)) = .ok (answer, h) →
        (do return (← x).graph : Checked (Graph ρ)) = .ok h := by
    intro α x f hx
    cases x with
    | error fault => cases hx
    | ok edit =>
        cases hx
        rfl
  have hsame : ∀ {α : Type} {x : Checked α} {f : α → Answer ρ},
      (do return (f (← x), g) : Checked (Answer ρ × Graph ρ)) = .ok (answer, h) → h.Regular := by
    intro α x f hx
    cases x with
    | error fault => cases hx
    | ok path =>
        cases hx
        exact r
  cases c with
  | attach path record => exact r.of_operation (o := .attach path record) (hchange hcall)
  | detach id record => exact r.of_operation (o := .detach id record) (hchange hcall)
  | clean id => exact r.of_operation (o := .clean id) (hchange hcall)
  | path id => exact hsame hcall
  | mounts => exact hsame hcall
  | _ =>
      cases hcall
      exact r

/-- **Graphs that are alike** cannot be told apart by any calls. -/
theorem Alike.interchangeable [DecidableEq ρ] (a : g.Alike h) (rg : g.Regular) (rh : h.Regular) :
    g.Interchangeable h := by
  intro cs
  induction cs generalizing g h with
  | nil => exact ⟨[], rfl, rfl⟩
  | cons c cs ih =>
      obtain ⟨answer, g', h', hg, hh, a'⟩ := a.call rg rh c
      obtain ⟨answers, hgs, hhs⟩ := ih a' (rg.call hg) (rh.call hh)
      refine ⟨answer :: answers, ?_, ?_⟩
      · simp only [calls, hg, hgs, bind, Except.bind, pure, Except.pure]
      · simp only [calls, hh, hhs, bind, Except.bind, pure, Except.pure]

end VirtualFs.Mount.Graph
