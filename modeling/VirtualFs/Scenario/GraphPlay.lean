import VirtualFs.Mount.Listing
import VirtualFs.Scenario.Log

/-!
# Scenarios on a mount graph

A mount graph worked on directly, step by step, with drivers that are mere names.  A step may only
name nodes by numbers that an earlier answer has shown; such a number stays usable when its node
is gone.
-/

namespace VirtualFs.Scenario

open Mount (NodeId Graph Mode)

/-- How a step names a node. -/
inductive Target where
  | number (id : NodeId)
  /-- The node at the very path. -/
  | path (path : Path)
  | root
deriving DecidableEq, Repr

/-- One step on a mount graph. -/
inductive GraphStep where
  | add (path : Path) (driver : String)
  | remove (target : Target) (driver : String)
  | find (path : Path) (mode : Mode)
  | node (target : Target)
  | clean (target : Target)
  | pathOf (target : Target)
  | next (target : Target) (after : Option Segment)
  | list
  | count
  | tree
deriving DecidableEq, Repr

/-- All there is to see of a node. -/
structure NodeView where
  id : NodeId
  node : Mount.Node String
deriving DecidableEq, Repr

/-- The numbers that a view of a node shows. -/
def NodeView.ids (v : NodeView) : List NodeId :=
  v.id :: v.node.children ++ v.node.parent.toList

/-- What a step answers. -/
inductive GraphAnswer where
  | failed (error : Error)
  /-- The step names a node by a number not shown yet, or by a path that has none. -/
  | unknownNode
  | node (id : NodeId)
  | driver (name : String)
  | found (id : Option NodeId)
  | view (view : Option NodeView)
  | flag (value : Bool)
  | path (path : Path)
  | segment (segment : Option Segment)
  | paths (paths : List Path)
  | number (n : Nat)
  | tree (views : List NodeView)
deriving DecidableEq, Repr

/-- A mount graph and the numbers shown so far. -/
structure GraphPlay where
  graph : Graph String
  shown : List NodeId
deriving DecidableEq, Repr

namespace GraphPlay

/-- A graph of the root alone, whose number is known. -/
def start (limit : Option Nat) : GraphPlay :=
  { graph := .withLimit (limit.getD Limits.unboundedNodes), shown := [Graph.root] }

/-- The node that a step names, if it may. -/
def resolve (p : GraphPlay) : Target → Option NodeId
  | .number id => if p.shown.contains id then some id else none
  | .path path => p.graph.find path .exact
  | .root => some Graph.root

/-- The numbers are shown from now on. -/
def reveal (p : GraphPlay) (ids : List NodeId) : GraphPlay :=
  { p with shown := p.shown ++ ids.filter (! p.shown.contains ·) }

/-- All there is to see of a node, if it exists. -/
def view (p : GraphPlay) (id : NodeId) : Option NodeView :=
  (p.graph.node? id).map (⟨id, ·⟩)

/-- All there is to see of every node, each before its children. -/
def tree (p : GraphPlay) : Checked (List NodeView) := do
  return (← p.graph.preorder).filterMap p.view

/-- A step on a node. -/
def onTarget (p : GraphPlay) (target : Target)
    (act : NodeId → Checked (GraphAnswer × List Notice × GraphPlay)) :
    Checked (GraphAnswer × List Notice × GraphPlay) :=
  match p.resolve target with
  | none => .ok (.unknownNode, [], p)
  | some id => act id

/-- One step: its answer, what it reports, and the play it leaves. -/
def step (p : GraphPlay) : GraphStep → Checked (GraphAnswer × List Notice × GraphPlay)
  | .add path driver => do
    let edit ← p.graph.attach path driver
    let p := { p with graph := edit.graph }
    let notices := edit.changes.map Notice.changed
    match edit.answer with
    | .error e => return (.failed e, notices, p)
    | .ok id => return (.node id, notices, p.reveal [id])
  | .remove target driver => p.onTarget target fun id => do
    let edit ← p.graph.detach id driver
    let p := { p with graph := edit.graph }
    let notices := edit.changes.map Notice.changed
    match edit.answer with
    | .error e => return (.failed e, notices, p)
    | .ok name => return (.driver name, notices, p)
  | .find path mode =>
    let found := p.graph.find path mode
    return (.found found, [], p.reveal found.toList)
  | .node target => p.onTarget target fun id =>
    let view := p.view id
    return (.view view, [], p.reveal (view.toList.flatMap NodeView.ids))
  | .clean target => p.onTarget target fun id => do
    let edit ← p.graph.prune id
    return (.flag edit.answer, edit.changes.map Notice.changed, { p with graph := edit.graph })
  | .pathOf target => p.onTarget target fun id => do
    return (.path (← p.graph.pathOf id), [], p)
  | .next target after => p.onTarget target fun id =>
    return (.segment ((p.graph.childAfter id after).map (·.segment)), [], p)
  | .list => do return (.paths (← p.graph.mountPaths), [], p)
  | .count => return (.number p.graph.live, [], p)
  | .tree => do
    let views ← p.tree
    return (.tree views, [], p.reveal (views.flatMap NodeView.ids))

/-- Steps one after the other: the answer and the notices of each, the play they leave, and the
fault that stopped them if one did. -/
def run (p : GraphPlay) :
    List GraphStep → List (GraphAnswer × List Notice) × Except Fault GraphPlay
  | [] => ([], .ok p)
  | step :: rest =>
    match p.step step with
    | .error fault => ([], .error fault)
    | .ok (answer, notices, p) =>
      let (answers, result) := p.run rest
      ((answer, notices) :: answers, result)

end GraphPlay

end VirtualFs.Scenario
