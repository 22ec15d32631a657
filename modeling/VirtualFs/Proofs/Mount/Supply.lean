import Mathlib.Data.Stream.Init
import VirtualFs.Proofs.Mount.Growth

/-!
# The numbers to come

New nodes get the numbers on the free list, the last freed first, and then fresh ones.  So a graph
has a supply of numbers that never ends, and a graph that took numbers from it gives them back in
the order that restores it: what is given out first is taken back last.

Two graphs are `Alike` if they have the same nodes and the same supply.  Their arenas may differ: a
number may be on the free list of the one and not yet in the arena of the other.

* `supply_allocate`, `supply_without`: what giving out and taking back do to the supply.
* `Grown.alike_without`: nodes that were added, and are taken out in the opposite order, leave no
  trace.
-/

namespace VirtualFs.Mount.Graph

variable {ρ : Type} {g h : Graph ρ}

/-- The numbers that new nodes will get. -/
def supply (g : Graph ρ) : Stream' NodeId :=
  g.free ++ₛ Stream'.iterate Nat.succ g.nodes.size

theorem supply_allocate (g : Graph ρ) (node : Node ρ) :
    g.supply = Stream'.cons (g.allocate node).2 (g.allocate node).1.supply := by
  rw [allocate]
  cases hf : g.free with
  | nil =>
      show g.supply = Stream'.cons g.nodes.size ([] ++ₛ Stream'.iterate _ (g.nodes.push _).size)
      rw [supply, hf, Array.size_push, Stream'.nil_append_stream, Stream'.nil_append_stream,
        Stream'.iterate_eq]
  | cons new free =>
      show g.supply = Stream'.cons new (free ++ₛ Stream'.iterate _ (g.write new _).nodes.size)
      rw [supply, hf, size_write, Stream'.cons_append_stream]

@[simp] theorem supply_write (g : Graph ρ) (id : NodeId) (slot : Option (Node ρ)) :
    (g.write id slot).supply = g.supply := by
  rw [supply, supply, size_write]
  rfl

/-- Numbers that are taken back go in front, the last first. -/
theorem supply_without (g : Graph ρ) (gone : List NodeId) :
    (g.without gone).supply = gone.reverse ++ₛ g.supply := by
  rw [supply, supply, size_without, ← Stream'.append_append_stream]
  rfl

/-! ### Graphs that cannot be told apart -/

/-- The same nodes, the same room, and the same numbers to come. -/
structure Alike (g h : Graph ρ) : Prop where
  node : ∀ id, g.node? id = h.node? id
  supply : g.supply = h.supply
  limit : g.limit = h.limit
  live : g.live = h.live

namespace Alike

theorem refl (g : Graph ρ) : g.Alike g :=
  ⟨fun _ => rfl, rfl, rfl, rfl⟩

theorem symm (a : g.Alike h) : h.Alike g :=
  ⟨fun id => (a.node id).symm, a.supply.symm, a.limit.symm, a.live.symm⟩

theorem trans {i : Graph ρ} (a : g.Alike h) (b : h.Alike i) : g.Alike i :=
  ⟨fun id => (a.node id).trans (b.node id), a.supply.trans b.supply, a.limit.trans b.limit,
    a.live.trans b.live⟩

theorem node?_eq (a : g.Alike h) : g.node? = h.node? :=
  funext a.node

/-- Nothing was added, as far as the nodes show. -/
theorem grown (a : g.Alike h) : g.Grown [] h where
  without id := by rw [without_nil, a.node]
  severable := ⟨by simp, fun hid => by cases hid⟩
  nodup := .nil
  idle := by simp
  limit := a.limit.symm
  live := a.live.symm

/-- The slot of a live node may be written in both. -/
theorem write (a : g.Alike h) {id : NodeId} {node : Node ρ} (hn : g.node? id = some node)
    (slot : Option (Node ρ)) : (g.write id slot).Alike (h.write id slot) where
  node j := by
    rw [node?_write_of_node? hn, node?_write_of_node? ((a.node id).symm.trans hn), a.node]
  supply := by rw [supply_write, supply_write, a.supply]
  limit := a.limit
  live := a.live

/-- The same nodes may be taken out of both. -/
theorem without (a : g.Alike h) (gone : List NodeId) :
    (g.without gone).Alike (h.without gone) where
  node id := by rw [node?_without, node?_without, a.node]
  supply := by rw [supply_without, supply_without, a.supply]
  limit := a.limit
  live := by rw [Graph.without, Graph.without, a.live]

end Alike

/-- **Taking out what was added**, the last first, gives back the nodes and the numbers. -/
theorem Grown.alike_without {added : List NodeId} (k : g.Grown added h)
    (hsupply : g.supply = added.reverse ++ₛ h.supply) : (h.without added).Alike g where
  node := k.without
  supply := by rw [supply_without, hsupply]
  limit := k.limit
  live := by
    have hlive := k.live
    simp only [Graph.without]
    omega

end VirtualFs.Mount.Graph
