import VirtualFs.Mount.Lookup

/-!
# Listing the mount graph

The full path of a node, read upwards along the parents; the paths of all drivers, depth first in
the order of siblings; and the child of a node that comes next after a given segment.
-/

namespace VirtualFs.Mount.Graph

variable {ρ : Type}

/-- The segments from `id` up to the root, the node's own first; the root has none. -/
def ascend (g : Graph ρ) : Nat → Option NodeId → Checked (List Segment)
  | _, none => .ok []
  | 0, some _ => .error .boundExceeded
  | fuel + 1, some id =>
    match g.node? id with
    | none => .ok []
    | some node => do
      let above ← g.ascend fuel node.parent
      return if id = root then above else node.segment :: above

/-- The full path of a node, `/` for the root. -/
def pathOf (g : Graph ρ) (id : NodeId) : Checked Path := do
  let upward ← g.ascend (g.nodes.size + 1) (some id)
  return if upward.isEmpty then [Path.delimiter] else Path.ofSegments upward.reverse

/-- The nodes at and below those of a stack: each before its children, the children in their
order, and the first node of the stack with all below it before the next. -/
def preorderFrom (g : Graph ρ) : Nat → List NodeId → Checked (List NodeId)
  | _, [] => .ok []
  | 0, _ :: _ => .error .boundExceeded
  | fuel + 1, id :: stack =>
    match g.node? id with
    | none => g.preorderFrom fuel stack
    | some node => do
      let rest ← g.preorderFrom fuel (node.children ++ stack)
      return id :: rest

/-- All nodes, each before its children. -/
def preorder (g : Graph ρ) : Checked (List NodeId) :=
  g.preorderFrom (g.nodes.size + 1) [root]

/-- A node owns a driver. -/
def ownsDriver (g : Graph ρ) (id : NodeId) : Bool :=
  (g.node? id).any (·.driver.isSome)

/-- The paths at which a driver is attached. -/
def mountPaths (g : Graph ρ) : Checked (List Path) := do
  let ids ← g.preorder
  (ids.filter g.ownsDriver).mapM g.pathOf

/-- The first child of `dir` whose segment comes after `after`, or the first of all. -/
def childAfter (g : Graph ρ) (dir : NodeId) (after : Option Segment) : Option (Node ρ) := do
  let node ← g.node? dir
  let start := match after with
    | none => 0
    | some after =>
      Search.partitionPoint (fun id => g.orderTo after id != Ordering.gt) node.children
  let id ← node.children[start]?
  g.node? id

end VirtualFs.Mount.Graph
