import VirtualFs.Error
import VirtualFs.Mount.Lookup

/-!
# Attaching and detaching drivers

A driver is attached at a path by adding the nodes that are missing on the way (`attach`), and
detached from a node by removing it and every ancestor that then leads to no driver
(`detach`).  A failed attachment leaves no node behind: what it added is cleaned away
(`pruneSubtree`).

Every change of the set of nodes is reported (`Change`), in the order in which it happens.
-/

namespace VirtualFs.Mount

/-- A change of a mount graph, as it is reported. -/
inductive Change where
  /-- A node was added. -/
  | added (segment : Segment) (id : NodeId)
  /-- A node was removed. -/
  | removed (segment : Segment) (id : NodeId)
  /-- A driver was attached. -/
  | attached (path : Path)
deriving DecidableEq, Repr

/-- The outcome of an operation that may change a graph: the graph it leaves, what it reports, and
its answer. -/
structure Edit (ρ α : Type) where
  graph : Graph ρ
  changes : List Change
  answer : α

namespace Graph

variable {ρ : Type}

/-! ### Adding a node -/

/-- The graph with a new node in the arena, at the number freed last or else at the end. -/
def allocate (g : Graph ρ) (node : Node ρ) : Graph ρ × NodeId :=
  match g.free with
  | id :: free => ({ g.write id (some node) with free := free }, id)
  | [] => ({ g with nodes := g.nodes.push (some node) }, g.nodes.size)

/-- Add an empty node below `parent`, in its place among the siblings. -/
def addChild (g : Graph ρ) (parent : NodeId) (segment : Segment) :
    Checked (Except Error (Graph ρ × NodeId)) := do
  if g.limit ≤ g.live then
    return .error .noMemory
  let above ← g.node parent
  match Search.place (g.orderTo segment) above.children with
  | .found _ => throw (.nodeExists segment)
  | .vacant index =>
    let offset := above.offset + Path.byteLength segment + 1
    let (g, id) := g.allocate ⟨segment, offset, none, [], some parent⟩
    let g ← g.modify parent fun above =>
      { above with children := above.children.insertIdx index id }
    return .ok ({ g with live := g.live + 1 }, id)

/-! ### Removing nodes -/

/-- Take a node away from its parent and give its number back. -/
def eraseNode (g : Graph ρ) (id : NodeId) : Checked (Edit ρ Unit) := do
  let node ← g.node id
  let g ← match node.parent with
    | none => pure g
    | some parent => g.modify parent fun above => { above with children := above.children.erase id }
  if node.driver.isSome then
    throw .pruningOwner
  if g.live = 0 then
    throw .nodeCountUnderflow
  let g := g.write id none
  return ⟨{ g with free := id :: g.free, live := g.live - 1 }, [.removed node.segment id], ()⟩

mutual

/-- Remove the nodes at and below `id` that lead to no driver, and say whether `id` stays.  A node
that owns a driver stays with all below it; the root always stays; a dead number changes nothing.
The first argument bounds the depth of the walk. -/
def pruneSubtree : Nat → Graph ρ → NodeId → Checked (Edit ρ Bool)
  | 0, _, _ => .error .boundExceeded
  | fuel + 1, g, id =>
    match g.node? id with
    | none => .ok ⟨g, [], false⟩
    | some node =>
      if node.driver.isSome then .ok ⟨g, [], true⟩
      else do
        let below ← pruneChildren fuel g id 0
        if id = root then
          return { below with answer := true }
        else if below.answer then
          return below
        else
          let gone ← below.graph.eraseNode id
          return ⟨gone.graph, below.changes ++ gone.changes, false⟩

/-- Clean the children of `id` from index `index` on, and say whether one of them stays.  A child
that goes leaves its index to the next. -/
def pruneChildren : Nat → Graph ρ → NodeId → Nat → Checked (Edit ρ Bool)
  | 0, _, _, _ => .error .boundExceeded
  | fuel + 1, g, id, index =>
    match (g.node? id).bind (·.children[index]?) with
    | none => .ok ⟨g, [], false⟩
    | some child => do
      let first ← pruneSubtree fuel g child
      let rest ← pruneChildren fuel first.graph id (if first.answer then index + 1 else index)
      return ⟨rest.graph, first.changes ++ rest.changes, first.answer || rest.answer⟩

end

/-- A depth that no walk over a tree in this arena exceeds: every step goes down to a child or on to
a sibling. -/
def depthBound (g : Graph ρ) : Nat := 2 * g.nodes.size + 2

/-- Remove the nodes at and below `id` that lead to no driver, and say whether `id` stays. -/
def prune (g : Graph ρ) (id : NodeId) : Checked (Edit ρ Bool) :=
  pruneSubtree g.depthBound g id

/-- Clean `id` and its ancestors upwards until one of them stays. -/
def pruneUpward : Nat → Graph ρ → NodeId → Checked (Edit ρ Unit)
  | 0, _, _ => .error .boundExceeded
  | fuel + 1, g, id =>
    if id = root then .ok ⟨g, [], ()⟩
    else do
      let parent := (g.node? id).bind (·.parent)
      let cleaned ← g.prune id
      match cleaned.answer, parent with
      | true, _ => return ⟨cleaned.graph, cleaned.changes, ()⟩
      | false, none => return ⟨cleaned.graph, cleaned.changes, ()⟩
      | false, some parent =>
        let above ← pruneUpward fuel cleaned.graph parent
        return ⟨above.graph, cleaned.changes ++ above.changes, ()⟩

/-! ### Drivers -/

/-- Add nodes for `segments` one below the other, starting below `current`, and answer with the
last. When there is no room, what was added goes again; `first` is the first node added. -/
def extend (g : Graph ρ) (current : NodeId) (first : Option NodeId) :
    List Segment → Checked (Edit ρ (Except Error NodeId))
  | [] => return ⟨g, [], .ok current⟩
  | segment :: rest => do
    match ← g.addChild current segment with
    | .ok (g, id) =>
      let more ← g.extend id (first.or (some id)) rest
      return { more with changes := .added segment id :: more.changes }
    | .error e =>
      match first with
      | none => return ⟨g, [], .error e⟩
      | some first =>
        let cleaned ← g.prune first
        return ⟨cleaned.graph, cleaned.changes, .error e⟩

/-- Attach a driver at a path, adding the nodes that are missing, and answer with its node.  A
failed call leaves the graph as it was. -/
def attach (g : Graph ρ) (path : Path) (record : ρ) :
    Checked (Edit ρ (Except Error NodeId)) :=
  match Path.belowRoot? path with
  | none => .ok ⟨g, [], .error .invalidArgument⟩
  | some rest =>
    if (Path.pieces rest).any (fun piece => Limits.maxFilenameLength < Path.byteLength piece) then
      .ok ⟨g, [], .error .nameTooLong⟩
    else match g.find path .deepest with
      | none => .ok ⟨g, [], .error .invalidArgument⟩
      | some deepest => do
        let start ← g.node deepest
        let missing := Path.tokens (Path.tailFrom start.offset path)
        let extended ← g.extend deepest none missing
        match extended.answer with
        | .error e => return ⟨extended.graph, extended.changes, .error e⟩
        | .ok id =>
          let node ← extended.graph.node id
          if node.driver.isSome then
            return ⟨extended.graph, extended.changes, .error .alreadyExists⟩
          else
            let g := extended.graph.write id (some { node with driver := some record })
            return ⟨g, extended.changes ++ [.attached path], .ok id⟩

/-- Detach the driver `record` from the node that owns it, and remove the nodes that then lead to no
driver.  A node that is dead or owns another driver is not found. -/
def detach [DecidableEq ρ] (g : Graph ρ) (id : NodeId) (record : ρ) :
    Checked (Edit ρ (Except Error ρ)) :=
  match g.node? id with
  | none => .ok ⟨g, [], .error .notFound⟩
  | some node =>
    if node.driver = some record then do
      let g := g.write id (some { node with driver := none })
      let pruned ← g.pruneUpward (g.nodes.size + 1) id
      return ⟨pruned.graph, pruned.changes, .ok record⟩
    else .ok ⟨g, [], .error .notFound⟩

end Graph

end VirtualFs.Mount
