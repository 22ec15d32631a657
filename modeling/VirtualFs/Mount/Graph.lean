import VirtualFs.Fault
import VirtualFs.Limits
import VirtualFs.Path.Segment
import VirtualFs.Search

/-!
# The mount graph

A tree with one node for every path segment on the way to a mounted driver.  The nodes stand in
an arena and name each other by number: the root is number 0, a removed node's number is the next
one to be given out again.  The children of a node stand in the order of their segments
(`Segment.order`), so a child is found by halving.

A node also knows where its path ends: `offset` is the byte length of its full path plus one, the
position at which a path through the node goes on below it.

The graph says nothing about what is mounted: the records of drivers are any type `ρ` whose
members can be told apart.
-/

namespace VirtualFs.Mount

/-- The number of a node in the arena. -/
abbrev NodeId := Nat

/-- One node of the graph. -/
structure Node (ρ : Type) where
  /-- The last segment of the node's path, empty at the root. -/
  segment : Segment
  /-- Where a path through the node goes on below it. -/
  offset : Nat
  /-- What is mounted here. -/
  driver : Option ρ
  /-- The nodes one segment further down, in the order of their segments. -/
  children : List NodeId
  /-- The node one segment up; none at the root. -/
  parent : Option NodeId
deriving DecidableEq, Repr

/-- A mount graph. -/
structure Graph (ρ : Type) where
  /-- The arena: a node or a dead slot at every number given out so far. -/
  nodes : Array (Option (Node ρ))
  /-- The dead slots, the one to be reused next first. -/
  free : List NodeId
  /-- How many nodes there may be. -/
  limit : Nat
  /-- How many nodes there are. -/
  live : Nat
deriving DecidableEq, Repr

namespace Graph

variable {ρ : Type}

/-- The root, which always exists. -/
def root : NodeId := 0

/-- The graph of the root alone, with room for `limit` nodes but at least for the root. -/
def withLimit (limit : Nat) : Graph ρ :=
  { nodes := #[some ⟨[], 1, none, [], none⟩], free := [], limit := max limit 1, live := 1 }

/-- The node with a number, if there is one. -/
def node? (g : Graph ρ) (id : NodeId) : Option (Node ρ) :=
  g.nodes.getD id none

/-- The node with a number that some link names. -/
def node (g : Graph ρ) (id : NodeId) : Checked (Node ρ) :=
  match g.node? id with
  | some node => .ok node
  | none => .error (.danglingNode id)

/-- The segment of a node, empty for a dead number. -/
def segment (g : Graph ρ) (id : NodeId) : Segment :=
  match g.node? id with
  | some node => node.segment
  | none => []

/-- The graph with `slot` at a number of the arena. -/
def write (g : Graph ρ) (id : NodeId) (slot : Option (Node ρ)) : Graph ρ :=
  { g with nodes := g.nodes.setIfInBounds id slot }

/-- Change a node that some link names. -/
def modify (g : Graph ρ) (id : NodeId) (change : Node ρ → Node ρ) : Checked (Graph ρ) := do
  let node ← g.node id
  return g.write id (some (change node))

/-- The order of a node's segment to `segment`. -/
def orderTo (g : Graph ρ) (segment : Segment) (id : NodeId) : Ordering :=
  Segment.order (g.segment id) segment

/-- The child of `node` with a segment. -/
def child? (g : Graph ρ) (node : Node ρ) (segment : Segment) : Option NodeId :=
  Search.find? (g.orderTo segment) node.children

theorem node?_write (g : Graph ρ) (id other : NodeId) (slot : Option (Node ρ)) :
    (g.write id slot).node? other =
      if other = id ∧ id < g.nodes.size then slot else g.node? other := by
  simp only [node?, write, Array.getD_eq_getD_getElem?, Array.getElem?_setIfInBounds]
  by_cases h : id = other
  · subst h
    by_cases hb : id < g.nodes.size <;> simp [hb]
  · have h' : other ≠ id := fun e => h e.symm
    simp [h, h']

end Graph

end VirtualFs.Mount
