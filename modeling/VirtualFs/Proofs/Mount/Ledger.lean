import Mathlib.Data.List.MinMax
import VirtualFs.Mount.Resolution
import VirtualFs.Proofs.Mount.Regular
import VirtualFs.Proofs.Path.Clean

/-!
# Mount points as a finite map

Which driver serves a path can be told from the mount points alone: a `Ledger` lists their segments,
each with its record, and the entry with the longest key among those on the way to the path is the
one (`Ledger.serving`).

* `resolve_eq_answer`: resolving a clean path gives what the ledger of the graph answers.
* `Represents.attached`, `Represents.detached`: how the ledger follows the graph.
-/

namespace VirtualFs.Mount

/-- What is mounted: the segments of every mount point with the record there. -/
abbrev Ledger (ρ : Type) := List (List Segment × ρ)

namespace Ledger

variable {ρ : Type}

/-- The entry whose key is the longest one among the prefixes of the segments. -/
def serving (d : Ledger ρ) (segments : List Segment) : Option (List Segment × ρ) :=
  (d.filter fun entry => entry.1.isPrefixOf segments).argmax fun entry => entry.1.length

/-- Who serves the path with these segments: the record of the longest key that is a prefix, for
what comes after the key; or else the node of the path, if it is the root or on the way to a mount
point. -/
def answer (d : Ledger ρ) (segments : List Segment) : Except Error (Resolution ρ) :=
  match d.serving segments with
  | some (key, record) =>
    .ok (.driver record (1 + (key.map fun segment => Path.byteLength segment + 1).sum))
  | none =>
    if segments = [] ∨ ∃ entry ∈ d, segments <+: entry.1 ∧ segments ≠ entry.1 then .ok .node
    else .error .notFound

theorem serving_eq_none {d : Ledger ρ} {segments : List Segment} :
    d.serving segments = none ↔ ∀ entry ∈ d, ¬ entry.1 <+: segments := by
  rw [serving, List.argmax_eq_none, List.filter_eq_nil_iff]
  simp only [List.isPrefixOf_iff_prefix]

/-- What serves is an entry on the way to the path, and none with a longer key is. -/
theorem serving_eq_some {d : Ledger ρ} {segments : List Segment} {entry : List Segment × ρ}
    (h : d.serving segments = some entry) : entry ∈ d ∧ entry.1 <+: segments ∧
      ∀ other ∈ d, other.1 <+: segments → other.1.length ≤ entry.1.length := by
  have hmem := List.argmax_mem h
  rw [List.mem_filter, List.isPrefixOf_iff_prefix] at hmem
  refine ⟨hmem.1, hmem.2, fun other hother hpre => ?_⟩
  have hon : other ∈ d.filter fun entry => entry.1.isPrefixOf segments :=
    List.mem_filter.mpr ⟨hother, List.isPrefixOf_iff_prefix.mpr hpre⟩
  have hle := List.le_of_mem_argmax hon h
  exact hle

end Ledger

namespace Graph

variable {ρ : Type} {g h : Graph ρ} {d : Ledger ρ}

/-- The ledger lists what is held. -/
def Represents (g : Graph ρ) (d : Ledger ρ) : Prop :=
  ∀ segments record, g.Holds segments record ↔ (segments, record) ∈ d

theorem represents_withLimit (limit : Nat) : (withLimit limit : Graph ρ).Represents [] := by
  refine fun segments record => ⟨?_, by simp⟩
  rintro ⟨j, node, -, hn, hd⟩
  rw [node?_withLimit] at hn
  split at hn
  · cases hn
    cases hd
  · cases hn

theorem Represents.grown (hd : g.Represents d) (k : g.Grown [] h) : h.Represents d :=
  fun segments record => k.holds_iff.trans (hd segments record)

/-- Attaching adds an entry. -/
theorem Represents.attached (hd : g.Represents d) {segments : List Segment} {record : ρ}
    {id : NodeId} (a : g.Attached segments record id h) :
    h.Represents ((segments, record) :: d) := by
  intro other r
  rw [a.holds_iff, List.mem_cons, Prod.mk.injEq, ← hd]
  by_cases he : other = segments
  · subst he
    simp only [if_true, true_and]
    exact ⟨fun e => .inl e.symm, fun hor => hor.elim Eq.symm fun hh => absurd hh a.not_held⟩
  · simp [he]

/-- Detaching takes the entries with the segments of the node out. -/
theorem Represents.detached (hd : g.Represents d) (r : g.Regular) {id : NodeId} {node : Node ρ}
    {segments : List Segment} (route : g.Route root segments id) (hn : g.node? id = some node)
    {gone : List NodeId} (hgone : (g.withDriver id node none).Barren gone) :
    ((g.withDriver id node none).without gone).Represents
      (d.filter fun entry => entry.1 ≠ segments) := by
  intro other record
  rw [r.holds_detached route hn hgone, hd, List.mem_filter]
  simp [and_comm]

/-! ### Resolving -/

/-- In a regular graph a node is the root or on the way to something held. -/
theorem Regular.exists_route_iff_holds (r : g.Regular) {segments : List Segment} :
    (∃ j, g.Route root segments j) ↔
      segments = [] ∨ ∃ key record, g.Holds key record ∧ segments <+: key := by
  constructor
  · rintro ⟨j, route⟩
    obtain ⟨node, hn⟩ := route.exists_end
    by_cases hroot : j = root
    · subst hroot
      exact .inl (route.segments_unique r.linked (.here hn))
    · obtain ⟨i, hb, hown⟩ := r.fruitful hn hroot
      obtain ⟨more, route'⟩ := r.linked.exists_route hn hb
      obtain ⟨record, hheld⟩ := (ownsDriver_iff r.linked (route.append route')).mp hown
      exact .inr ⟨_, record, hheld, List.prefix_append _ _⟩
  · rintro (rfl | ⟨key, record, ⟨j, node, route, -, -⟩, more, hkey⟩)
    · obtain ⟨top, htop, -⟩ := r.linked.root
      exact ⟨root, .here htop⟩
    · rw [show key = segments ++ more from hkey.symm] at route
      obtain ⟨k, route, -⟩ := route.exists_between
      exact ⟨k, route⟩

/-- So a node is the root or on the way to an entry of the ledger. -/
theorem Regular.exists_route_iff (r : g.Regular) (hd : g.Represents d) {segments : List Segment} :
    (∃ j, g.Route root segments j) ↔
      segments = [] ∨ ∃ entry ∈ d, segments <+: entry.1 := by
  rw [r.exists_route_iff_holds, Prod.exists]
  simp only [hd _ _]

variable {segments : List Segment}

/-- The last driver on the way is that of the longest key: a longer one would be the segments of a
later owner. -/
theorem Represents.serving_eq (w : g.WellLinked) (hd : g.Represents d)
    {front back : List Segment} {record : ρ} (hheld : g.Holds front record)
    (hlast : ∀ more k, more ≠ [] → more <+: back → g.Route root (front ++ more) k →
      g.ownsDriver k = false) : d.serving (front ++ back) = some (front, record) := by
  have hentry := (hd front record).mp hheld
  cases hserv : d.serving (front ++ back) with
  | none => exact absurd (List.prefix_append _ _) (Ledger.serving_eq_none.mp hserv _ hentry)
  | some entry =>
      obtain ⟨key, record'⟩ := entry
      obtain ⟨hmem, hpre, hmax⟩ := Ledger.serving_eq_some hserv
      -- the longest key goes on from `front`, if it is not `front` itself
      have hle := hmax _ hentry (List.prefix_append _ _)
      obtain ⟨more, rfl⟩ := List.prefix_of_prefix_length_le (List.prefix_append _ _) hpre hle
      have hheld' : g.Holds (front ++ more) record' := (hd _ record').mpr hmem
      have hmore : more = [] := by
        by_contra hne
        obtain ⟨k, -, route, -⟩ := hheld'
        rw [List.prefix_append_right_inj] at hpre
        have hidle := hlast more k hne hpre route
        rw [(ownsDriver_iff w route).mpr ⟨record', (hd _ record').mpr hmem⟩] at hidle
        cases hidle
      subst hmore
      rw [List.append_nil] at hheld' ⊢
      rw [hheld'.unique w hheld]

/-- Where there is no driver on the way, no key serves. -/
theorem Represents.serving_eq_none (w : g.WellLinked) (hd : g.Represents d)
    (hnone : ∀ front k, front <+: segments → g.Route root front k → g.ownsDriver k = false) :
    d.serving segments = none := by
  refine Ledger.serving_eq_none.mpr fun entry hmem hpre => ?_
  have hheld := (hd entry.1 entry.2).mpr hmem
  obtain ⟨k, -, route, -⟩ := hheld
  have hidle := hnone entry.1 k hpre route
  rw [(ownsDriver_iff w route).mpr ⟨entry.2, (hd entry.1 entry.2).mpr hmem⟩] at hidle
  cases hidle

/-- The driver on the way to a path is that of the entry that serves it. -/
theorem serving?_eq (r : g.Regular) (hd : g.Represents d)
    (hs : ∀ s ∈ segments, s ≠ [] ∧ Path.delimiter ∉ s) :
    g.serving? (Path.ofSegments segments) =
      (d.serving segments).map fun entry => (entry.2, 1 + Path.span entry.1) := by
  have w := r.linked
  obtain ⟨top, htop, -, hoff, -⟩ := w.root
  have hlast := walk_driver w htop none ((Path.ofSegments segments).drop 1)
  rw [Path.tokens_belowRoot hs] at hlast
  rw [serving?, find_of_belowRoot (Path.belowRoot?_ofSegments segments)]
  rcases hlast with ⟨front, back, j, hsplit, hwalk, route, hown, hlast⟩ | ⟨hwalk, hnone⟩
  · obtain ⟨record, hheld⟩ := (ownsDriver_iff w route).mp hown
    have hserving := hd.serving_eq w hheld hlast
    obtain ⟨j', node, route', hn, hdriver⟩ := hheld
    rw [← route.unique w route'] at hn
    rw [hwalk, hsplit, hserving]
    simp only [bind, Option.bind, hn, hdriver, Option.map_some, pure]
    rw [route.offset w htop hn, hoff]
  · rw [hwalk, hd.serving_eq_none w hnone]
    rfl

/-- **Resolving** a path made of segments gives what the ledger answers. -/
theorem resolve_eq_answer (r : g.Regular) (hd : g.Represents d)
    (hs : ∀ s ∈ segments, s ≠ [] ∧ Path.delimiter ∉ s) :
    g.resolve (Path.ofSegments segments) = d.answer segments := by
  rw [resolve, serving?_eq r hd hs, Ledger.answer]
  cases hserving : d.serving segments with
  | some entry => rfl
  | none =>
      obtain ⟨top, htop, -⟩ := r.linked.root
      have hfind : (g.find (Path.ofSegments segments) .exact).isSome = true ↔
          ∃ j, g.Route root segments j := by
        rw [find_of_belowRoot (Path.belowRoot?_ofSegments segments), Option.isSome_iff_exists]
        refine exists_congr ?_
        intro j
        rw [walk_exact r.linked htop, Path.tokens_belowRoot hs]
      have hproper : (∃ entry ∈ d, segments <+: entry.1 ∧ segments ≠ entry.1) ↔
          ∃ entry ∈ d, segments <+: entry.1 := by
        refine exists_congr fun entry => and_congr_right fun hmem => and_iff_left_of_imp ?_
        rintro - rfl
        exact Ledger.serving_eq_none.mp hserving _ hmem (List.prefix_refl _)
      rw [Option.map_none]
      simp only [hproper, ← r.exists_route_iff hd, ← hfind]

end Graph

end VirtualFs.Mount
