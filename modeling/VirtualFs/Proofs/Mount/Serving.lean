import VirtualFs.Proofs.Mount.Ledger
import VirtualFs.Proofs.Mount.Mounted

/-!
# What the server of a path is given

A clean path is served by the deepest mount on the way along its segments, which is given what
follows the mount point.  The position at which that begins is kept in bytes with the node of the
mount; here it is shown to be where the segments of the mount point end, whatever characters they
are made of.

* `Path.Splits`: a clean path, a mount point on the way, and what follows it.
* `Path.splits_tailFrom`: the byte position behind a mount point splits the path there.
* `Resolves`, `Regular.resolves`: who serves a clean path, if anyone does.
-/

namespace VirtualFs

namespace Path

/-- `rest` is what follows the clean path `mount` in a clean path that goes on from it, without the
delimiter between them. -/
structure Splits (clean mount rest : Path) : Prop where
  eq : clean = if rest = [] then mount else mount ++ delimiter :: rest
  head : rest.head? ≠ some delimiter
  last : rest.getLast? ≠ some delimiter

variable {segs : List Segment}

theorem ofSegments_append (front back : List Segment) :
    ofSegments (front ++ back) = ofSegments front ++ ofSegments back :=
  List.flatMap_append

theorem byteLength_ofSegments (segs : List Segment) : byteLength (ofSegments segs) = span segs := by
  induction segs with
  | nil => rfl
  | cons s segs ih =>
    rw [ofSegments_cons, byteLength_cons, byteLength_append, ih, span_cons,
      byteLength_delimiter]
    omega

/-- A path made of segments does not end in a delimiter. -/
theorem getLast?_ofSegments (h : ∀ s ∈ segs, s ≠ [] ∧ delimiter ∉ s) :
    (ofSegments segs).getLast? ≠ some delimiter := by
  induction segs with
  | nil => simp
  | cons s segs ih =>
    obtain ⟨hne, hs⟩ := h s List.mem_cons_self
    have ih := ih fun t ht => h t (List.mem_cons_of_mem _ ht)
    rw [ofSegments_cons, ← List.cons_append, List.getLast?_append]
    cases hlast : (ofSegments segs).getLast? with
    | some c => rwa [hlast] at ih
    | none =>
      rw [List.getLast?_cons_of_ne_nil hne, Option.none_or]
      exact fun e => hs (List.mem_of_getLast? e)

/-- **Behind a mount point** begins what follows it, at the position that its segments take. -/
theorem splits_tailFrom {front back : List Segment}
    (h : ∀ s ∈ back, s ≠ [] ∧ delimiter ∉ s) :
    Splits (ofSegments (front ++ back)) (ofSegments front)
      (tailFrom (1 + span front) (ofSegments (front ++ back))) := by
  have hlength := byteLength_ofSegments front
  cases back with
  | nil =>
    have hpast : tailFrom (1 + span front) (ofSegments front) = [] := by
      rw [← hlength, Nat.add_comm]
      exact tailFrom_past _ 0
    rw [List.append_nil, hpast]
    exact ⟨by rw [if_pos rfl], by simp, by simp⟩
  | cons s back =>
    obtain ⟨hne, hs⟩ := h s List.mem_cons_self
    have hwhole : ofSegments (front ++ s :: back) =
        (ofSegments front ++ [delimiter]) ++ (s ++ ofSegments back) := by
      rw [ofSegments_append, ofSegments_cons, List.append_assoc, List.singleton_append]
    have hposition : 1 + span front = byteLength (ofSegments front ++ [delimiter]) := by
      rw [byteLength_append, hlength, byteLength_cons, byteLength_delimiter, Nat.add_comm]
      rfl
    have hlast := getLast?_ofSegments h
    rw [hwhole, hposition, tailFrom_append]
    obtain ⟨c, s, rfl⟩ := List.exists_cons_of_ne_nil hne
    refine ⟨?_, ?_, ?_⟩
    · rw [if_neg (by simp), List.append_assoc, List.singleton_append]
    · rw [List.cons_append, List.head?_cons]
      exact fun e => hs (Option.some.inj e ▸ List.mem_cons_self)
    · rwa [ofSegments_cons, List.getLast?_cons_of_ne_nil (by simp)] at hlast

end Path

namespace Mount.Graph

variable {ρ : Type} {g : Graph ρ} {segments : List Segment}

/-- The record is mounted at `front`, and no mount on the way along the segments is deeper. -/
structure Serves (g : Graph ρ) (segments front : List Segment) (record : ρ) : Prop where
  onWay : front <+: segments
  mounted : g.Holds front record
  deepest : ∀ other r, other <+: segments → g.Holds other r → other.length ≤ front.length

/-- **Who serves the clean path of the segments**, if anyone does. -/
inductive Resolves (g : Graph ρ) (segments : List Segment) : Except Error (Resolution ρ) → Prop
  /-- The deepest mount on the way serves what follows it. -/
  | driver {front : List Segment} {record : ρ} {offset : Nat} (h : g.Serves segments front record)
      (hsplits : Path.Splits (Path.ofSegments segments) (Path.ofSegments front)
        (Path.tailFrom offset (Path.ofSegments segments))) :
      Resolves g segments (.ok (.driver record offset))
  /-- No mount is on the way, but the path is that of a node. -/
  | node (hnone : ∀ front record, front <+: segments → ¬ g.Holds front record)
      (hnode : g.contains (Path.ofSegments segments) = true) : Resolves g segments (.ok .node)
  | notFound (hnone : ∀ front record, front <+: segments → ¬ g.Holds front record)
      (hmissing : g.contains (Path.ofSegments segments) = false) :
      Resolves g segments (.error .notFound)

/-- **Resolving a clean path** tells who serves it. -/
theorem Regular.resolves (rg : g.Regular) (hs : ∀ s ∈ segments, s ≠ [] ∧ Path.delimiter ∉ s) :
    g.Resolves segments (g.resolve (Path.ofSegments segments)) := by
  have w := rg.linked
  obtain ⟨top, htop, -, hoff, -⟩ := w.root
  have hlast := walk_driver w htop none ((Path.ofSegments segments).drop 1)
  rw [Path.tokens_belowRoot hs] at hlast
  rw [resolve, serving?, find_of_belowRoot (Path.belowRoot?_ofSegments segments)]
  rcases hlast with ⟨front, back, j, rfl, hwalk, route, hown, hlast⟩ | ⟨hwalk, hnone⟩
  · obtain ⟨record, hheld⟩ := (ownsDriver_iff w route).mp hown
    obtain ⟨j', node, route', hn, hdriver⟩ := hheld
    cases route.unique w route'
    rw [hwalk]
    simp only [bind, Option.bind, hn, hdriver, pure]
    rw [route.offset w htop hn, hoff]
    refine .driver ⟨List.prefix_append _ _, ⟨j, node, route, hn, hdriver⟩, ?_⟩
      (Path.splits_tailFrom fun s hmem => hs s (List.mem_append_right _ hmem))
    -- a mount further on would be a later owner
    intro other r hpre hheld
    rcases List.prefix_or_prefix_of_prefix hpre (List.prefix_append front back) with hle | hle
    · exact hle.length_le
    obtain ⟨more, rfl⟩ := hle
    by_contra hlt
    have hne : more ≠ [] := by
      rintro rfl
      simp at hlt
    obtain ⟨k, node', routek, hk, hdk⟩ := hheld
    have hidle := hlast more k hne ((List.prefix_append_right_inj front).mp hpre) routek
    rw [ownsDriver_of_node? hk, hdk] at hidle
    cases hidle
  · rw [hwalk]
    simp only [bind, Option.bind]
    have hfree : ∀ front record, front <+: segments → ¬ g.Holds front record := by
      rintro front record hpre ⟨k, node, route, hk, hd⟩
      have hidle := hnone front k hpre route
      rw [ownsDriver_of_node? hk, hd] at hidle
      cases hidle
    split
    · exact .node hfree ‹_›
    · exact .notFound hfree (Bool.eq_false_iff.mpr ‹_›)

end Mount.Graph

end VirtualFs
