import VirtualFs.Mount.Graph

/-!
# Finding a node

A path is walked from the root, one token after the other, for as long as there is a child with
the token.  What the walk answers depends on the mode (`Mode`): the deepest node that owns a
driver, the node of the whole path, or the deepest node there is.  Whole segments are compared, so
a driver at `/dev` serves `/dev/uart0` and not `/device`.

A path that is neither empty nor absolute finds nothing.
-/

namespace VirtualFs.Mount

/-- Which node a look-up is after. -/
inductive Mode where
  /-- The deepest node on the path that owns a driver. -/
  | driver
  /-- The node at the very path. -/
  | exact
  /-- The deepest node on the path. -/
  | deepest
deriving DecidableEq, Repr

namespace Graph

variable {ρ : Type}

/-- The best answer so far, once the walk has reached `node`. -/
def candidate (mode : Mode) (id : NodeId) (node : Node ρ) (best : Option NodeId) : Option NodeId :=
  match mode with
  | .driver => if node.driver.isSome then some id else best
  | .exact => best
  | .deepest => some id

/-- The walk from node `id` over the rest of a path. -/
def walk (g : Graph ρ) (mode : Mode) (id : NodeId) (best : Option NodeId) (rest : Path) :
    Option NodeId :=
  match g.node? id with
  | none => none
  | some node =>
    match _h : Path.takeToken? rest with
    | none => if mode = .exact then some id else candidate mode id node best
    | some (token, remainder) =>
      match g.child? node token with
      | some child => g.walk mode child (candidate mode id node best) remainder
      | none => if mode = .exact then none else candidate mode id node best
termination_by rest.length
decreasing_by exact Path.length_lt_of_takeToken? ‹_›

/-- The node that a look-up of `path` finds. -/
def find (g : Graph ρ) (path : Path) (mode : Mode) : Option NodeId :=
  match Path.belowRoot? path with
  | none => none
  | some rest => g.walk mode root none rest

end Graph

end VirtualFs.Mount
