import VirtualFs.Proofs.Mount.Fruitful

/-!
# Growing a graph

`Grown g added h` says that `h` is `g` with the nodes `added`, which own no drivers: without them
the nodes are those of `g` again.  Where nothing is added, `h` differs from `g` at most in the
numbers that it will give out.

* `Grown.trans`: growing goes on.
* `Grown.prune`: cleaning away what was added below a node takes it out again.
-/

namespace VirtualFs.Mount.Graph

variable {ρ : Type} {g h : Graph ρ}

/-- `h` is `g` with more nodes, which own no drivers. -/
structure Grown (g : Graph ρ) (added : List NodeId) (h : Graph ρ) : Prop where
  /-- Without the new nodes, the nodes are the old ones. -/
  without : ∀ id, (h.without added).node? id = g.node? id
  /-- Only new nodes are below new nodes. -/
  severable : h.Severable added
  nodup : added.Nodup
  /-- The new nodes are there, and none owns a driver. -/
  idle : ∀ id ∈ added, ∃ node, h.node? id = some node ∧ node.driver = none
  limit : h.limit = g.limit
  live : h.live = g.live + added.length

namespace Grown

theorem refl (g : Graph ρ) : g.Grown [] g where
  without id := by rw [without_nil]
  severable := ⟨by simp, fun hid => by cases hid⟩
  nodup := .nil
  idle := by simp
  limit := rfl
  live := rfl

variable {added : List NodeId}

/-- A new number was dead. -/
theorem fresh (k : g.Grown added h) {id : NodeId} (hid : id ∈ added) : g.node? id = none := by
  rw [← k.without, node?_without, if_pos hid]

theorem not_mem (k : g.Grown added h) {id : NodeId} {node : Node ρ} (hn : g.node? id = some node) :
    id ∉ added := by
  intro hid
  rw [k.fresh hid] at hn
  cases hn

/-- An old node is there, but for its new children the same. -/
theorem exists_node (k : g.Grown added h) {id : NodeId} {node : Node ρ}
    (hn : g.node? id = some node) :
    ∃ node', h.node? id = some node' ∧ node = node'.dropChildren added := by
  rw [← k.without] at hn
  obtain ⟨-, node', hn', he⟩ := node?_of_without hn
  exact ⟨node', hn', he⟩

theorem old_of_not_mem (k : g.Grown added h) {id : NodeId} {node : Node ρ}
    (hn : h.node? id = some node) (hid : id ∉ added) :
    g.node? id = some (node.dropChildren added) := by
  rw [← k.without, node?_without_of_not_mem hid, hn]
  rfl

/-- A node owns the driver that it did own. -/
theorem ownsDriver_eq (k : g.Grown added h) (id : NodeId) : h.ownsDriver id = g.ownsDriver id := by
  by_cases hid : id ∈ added
  · obtain ⟨node, hn, hd⟩ := k.idle id hid
    rw [ownsDriver, ownsDriver, hn, k.fresh hid, Option.any_some, hd]
    rfl
  · rw [← ownsDriver_without hid, ownsDriver, ownsDriver, k.without]

theorem links (k : g.Grown added h) {a b : NodeId} (hl : g.Links a b) : h.Links a b := by
  obtain ⟨node, hn, hmem⟩ := hl
  rw [← k.without] at hn
  exact links_of_without ⟨node, hn, hmem⟩

theorem below (k : g.Grown added h) {a b : NodeId} (hb : g.Below a b) : h.Below a b :=
  Relation.ReflTransGen.mono (fun _ _ hl => k.links hl) _ _ hb

theorem leads (k : g.Grown added h) {id : NodeId} (hl : g.Leads id) : h.Leads id := by
  obtain ⟨j, hj, hown⟩ := hl
  exact ⟨j, k.below hj, (k.ownsDriver_eq j).trans hown⟩

theorem trans {more : List NodeId} {i : Graph ρ} (k : g.Grown added h) (k' : h.Grown more i) :
    g.Grown (more ++ added) i where
  without id := by
    rw [← without_without, node?_without, k'.without, ← node?_without, k.without]
  severable := by
    refine ⟨fun hr => ?_, fun {a b} ha hl => ?_⟩
    · rcases List.mem_append.mp hr with hr | hr
      · exact k'.severable.root hr
      · exact k.severable.root hr
    · rcases List.mem_append.mp ha with ha | ha
      · exact List.mem_append_left _ (k'.severable.down ha hl)
      · by_cases hb : b ∈ more
        · exact List.mem_append_left _ hb
        · obtain ⟨node, hn, -⟩ := k.idle a ha
          obtain ⟨node', hn', hmem⟩ := links_without hl (k'.not_mem hn) hb
          rw [k'.without] at hn'
          exact List.mem_append_right _ (k.severable.down ha ⟨node', hn', hmem⟩)
  nodup := by
    refine List.nodup_append'.mpr ⟨k'.nodup, k.nodup, fun id h₁ h₂ => ?_⟩
    obtain ⟨node, hn, -⟩ := k.idle id h₂
    exact k'.not_mem hn h₁
  idle id hid := by
    rcases List.mem_append.mp hid with hid | hid
    · exact k'.idle id hid
    · obtain ⟨node, hn, hd⟩ := k.idle id hid
      obtain ⟨node', hn', rfl⟩ := k'.exists_node hn
      exact ⟨node', hn', hd⟩
  limit := k'.limit.trans k.limit
  live := by
    rw [k'.live, k.live, List.length_append]
    omega

/-- **Cleaning away what was added** below the first new node takes it out again, the last first. -/
theorem prune (k : g.Grown added h) (w : h.WellLinked) (n : h.Numbered) {first : NodeId}
    {node : Node ρ} (hfirst : h.node? first = some node)
    (hadded : ∀ j, h.Below first j ↔ j ∈ added)
    (hchain : added.Pairwise fun a b => h.Below b a) :
    h.prune first = .ok ⟨h.without added, h.removals added, false⟩ := by
  obtain ⟨t, rfl, hspans⟩ := w.isTree.exists_spans hfirst
  have hids : ∀ j, j ∈ t.ids ↔ j ∈ added := fun j => hspans.mem_ids.trans (hadded j)
  have hidle : ∀ j ∈ t.ids, j ≠ root ∧ h.ownsDriver j = false := by
    intro j hj
    have hj := (hids j).mp hj
    obtain ⟨node, hn, hd⟩ := k.idle j hj
    refine ⟨fun e => k.severable.root (e ▸ hj), ?_⟩
    rw [ownsDriver_of_node? hn, hd]
    rfl
  have hmem : ∀ j, j ∈ t.fallen h.ownsDriver ↔ j ∈ added := fun j =>
    (mem_fallen_of_barren hidle).trans (hids j)
  have hnodup := Tree.nodup_fallen h.ownsDriver (hspans.nodup_ids w.isTree)
  have hperm := (List.perm_ext_iff_of_nodup hnodup k.nodup).mpr hmem
  -- of two new nodes one is below the other, which leaves one order for both lists
  have hchain' : added.Pairwise fun a b => ¬ h.Below a b :=
    (hchain.and k.nodup).imp fun hab hb => hab.2 (w.isTree.below_antisymm hb hab.1)
  have hsymm : Std.Symm fun a b => h.Below a b ∨ h.Below b a := ⟨fun _ _ => Or.symm⟩
  have hcomparable := (hchain.imp Or.inr).forall_of_forall
    (R := fun a b => h.Below a b ∨ h.Below b a) fun _ _ => .inl .refl
  have hfallen : t.fallen h.ownsDriver = added :=
    hperm.eq_of_pairwise (fun a b ha hb hab hba => by
      rcases hcomparable ((hmem a).mp ha) hb with h | h
      · exact absurd h hab
      · exact absurd h hba) (hspans.fallen_order h.ownsDriver w.isTree) hchain'
  have hstays : t.stays h.ownsDriver = false :=
    (Tree.id_mem_fallen _ (hspans.nodup_ids w.isTree)).mp ((hmem _).mpr ((hids _).mp t.id_mem_ids))
  rw [prune_eq w.isTree n.counted hspans, hstays, hfallen]

end Grown

end VirtualFs.Mount.Graph
