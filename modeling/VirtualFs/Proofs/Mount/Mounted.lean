import VirtualFs.Proofs.Mount.Records
import VirtualFs.Proofs.Mount.Restoring
import VirtualFs.Proofs.Mount.Undoing

/-!
# What is mounted at a clean path

The look-up of a clean path finds the node at the end of the way along its segments
(`mounted?_eq_some`).  A driver is attached there exactly if the path is free, its segments are not
too long, and there is room for the nodes that are missing on the way (`Refuses`), and what is
mounted elsewhere stays where it is.

* `Regular.attach_clean`: attaching at a clean path.
* `PutBack`, `Regular.putBack`: the attempt to put a record back that was detached.
* `Bars`, `Mounted`, `Regular.mount_cases`: the attempt to mount something new.
-/

namespace VirtualFs.Mount.Graph

variable {ρ : Type} {g h : Graph ρ} {id j : NodeId} {record r : ρ} {segments : List Segment}

section

variable (w : g.WellLinked) (hs : ∀ s ∈ segments, s ≠ [] ∧ Path.delimiter ∉ s)

include w hs

/-- A clean path leads along its segments. -/
theorem find_ofSegments :
    g.find (Path.ofSegments segments) .exact = some id ↔ g.Route root segments id := by
  obtain ⟨top, htop, -⟩ := w.root
  rw [find_of_belowRoot (Path.belowRoot?_ofSegments segments), walk_exact w htop,
    Path.tokens_belowRoot hs]

/-- **What is mounted at a clean path** is the record of the node at the end of the way. -/
theorem mounted?_eq_some : g.mounted? (Path.ofSegments segments) = some (id, record) ↔
    g.Route root segments id ∧ g.record? id = some record := by
  rw [← find_ofSegments w hs, mounted?]
  simp only [bind, Option.bind_eq_some_iff, pure, Option.some.injEq, record?]
  constructor
  · rintro ⟨j, hfind, node, hn, owner, hd, he⟩
    cases he
    exact ⟨hfind, node, hn, hd⟩
  · rintro ⟨hfind, node, hn, hd⟩
    exact ⟨id, hfind, node, hn, record, hd, rfl⟩

theorem mounted?_eq_none :
    g.mounted? (Path.ofSegments segments) = none ↔ ∀ record, ¬ g.Holds segments record := by
  rw [Option.eq_none_iff_forall_not_mem]
  constructor
  · rintro h record ⟨j, node, route, hn, hd⟩
    exact h (j, record) ((mounted?_eq_some w hs).mpr ⟨route, (record?_of_node? hn).trans hd⟩)
  · rintro h ⟨j, record⟩ hm
    obtain ⟨route, hr⟩ := (mounted?_eq_some w hs).mp hm
    obtain ⟨node, hn, hd⟩ := exists_node_of_record? hr
    exact h record ⟨j, node, route, hn, hd⟩

end

/-- At the end of the deepest way a driver is held only where nothing is missing. -/
theorem Deepest.holds_iff (w : g.WellLinked) {front missing : List Segment}
    (d : g.Deepest segments front missing id) : (∃ record, g.Holds segments record) ↔
      missing = [] ∧ g.ownsDriver id = true := by
  constructor
  · rintro ⟨record, j, node, route, hn, hd⟩
    obtain ⟨more, hfront, hmissing⟩ :=
      d.exists_between (show segments = segments ++ [] from (List.append_nil _).symm) route
    obtain ⟨rfl, rfl⟩ := List.append_eq_nil_iff.mp hmissing.symm
    rw [List.append_nil] at hfront
    rw [← hfront] at route
    rw [d.route.unique w route, ownsDriver, hn, Option.any_some, hd]
    exact ⟨rfl, rfl⟩
  · rintro ⟨rfl, hown⟩
    have hsplit := d.split
    rw [List.append_nil] at hsplit
    exact (ownsDriver_iff w (hsplit ▸ d.route)).mp hown

/-- The record that has been attached is what is mounted at the path. -/
theorem Attached.mounted (ha : g.Attached segments record id h) (w : h.WellLinked)
    (hs : ∀ s ∈ segments, s ≠ [] ∧ Path.delimiter ∉ s) :
    h.mounted? (Path.ofSegments segments) = some (id, record) := by
  obtain ⟨added, k, node, -, wk, -, route, hn, -, -, rfl⟩ := ha.exists_grown
  refine (mounted?_eq_some w hs).mpr ⟨(route_withDriver hn).mpr route, ?_⟩
  rw [record?_withDriver hn, if_pos rfl]

/-- Why nothing can be attached at the clean path of the segments, if so. -/
inductive Refuses (g : Graph ρ) (segments : List Segment) : Error → Prop where
  /-- There is a driver already. -/
  | taken (hmounted : (g.mounted? (Path.ofSegments segments)).isSome = true) :
      Refuses g segments .alreadyExists
  | long {s : Segment} (hmem : s ∈ segments)
      (hlong : Limits.maxFilenameLength < Path.byteLength s) : Refuses g segments .nameTooLong
  /-- There is no room for the nodes that are missing on the way. -/
  | full {front missing : List Segment} {deepest : NodeId}
      (hshort : ∀ s ∈ segments, Path.byteLength s ≤ Limits.maxFilenameLength)
      (d : g.Deepest segments front missing deepest) (hfull : g.limit < g.live + missing.length) :
      Refuses g segments .noMemory

/-- Where the segments are not too long, a free path and room are all that is needed. -/
theorem refuses_iff (w : g.WellLinked)
    (hshort : ∀ s ∈ segments, Path.byteLength s ≤ Limits.maxFilenameLength)
    {front missing : List Segment} {deepest : NodeId}
    (d : g.Deepest segments front missing deepest) : (∃ e, g.Refuses segments e) ↔
      ¬ (g.mounted? (Path.ofSegments segments) = none ∧ g.live + missing.length ≤ g.limit) := by
  rw [not_and_or, Nat.not_le, ← ne_eq, ← Option.isSome_iff_ne_none]
  constructor
  · rintro ⟨e, h⟩
    cases h with
    | taken hmounted => exact .inl hmounted
    | long hmem hlong => exact absurd (hshort _ hmem) (Nat.not_le.mpr hlong)
    | full _ d' hfull =>
      obtain ⟨-, rfl, -⟩ := d.unique w d'
      exact .inr hfull
  · rintro (hmounted | hfull)
    · exact ⟨_, .taken hmounted⟩
    · exact ⟨_, .full hshort d hfull⟩

/-- **Attaching at a clean path** succeeds exactly if the path does not refuse it. -/
theorem Regular.attach_clean (rg : g.Regular) (hs : ∀ s ∈ segments, s ≠ [] ∧ Path.delimiter ∉ s)
    (record : ρ) :
    (∃ h changes e, g.attach (Path.ofSegments segments) record = .ok ⟨h, changes, .error e⟩ ∧
      g.Refuses segments e ∧ h.Alike g ∧ h.Regular) ∨
    ∃ h changes id, g.attach (Path.ofSegments segments) record = .ok ⟨h, changes, .ok id⟩ ∧
      (∀ e, ¬ g.Refuses segments e) ∧ h.Regular ∧ g.Attached segments record id h := by
  have hbelow := Path.belowRoot?_ofSegments segments
  have htokens := Path.tokens_belowRoot hs
  have hfree := mounted?_eq_none rg.linked hs
  obtain ⟨front, missing, deepest, -, d⟩ :=
    exists_deepest rg.linked ((Path.ofSegments segments).drop 1)
  have d' : g.Deepest segments front missing deepest := htokens ▸ d
  have hpieces : ∀ {s}, s ∈ segments → s ∈ Path.pieces ((Path.ofSegments segments).drop 1) :=
    fun hmem => Path.mem_pieces_of_mem_tokens (htokens.symm ▸ hmem)
  have hverdict := rg.numbered.verdict (Path.ofSegments segments) deepest missing.length
  cases he : g.refusal? (Path.ofSegments segments) deepest missing.length with
  | some e =>
    obtain ⟨h, changes, hattach, ha, w, n⟩ := attach_refused rg.linked rg.numbered d he record
    refine .inl ⟨h, changes, e, hattach, ?_, ha, ha.symm.regular rg n⟩
    rw [he] at hverdict
    cases hverdict with
    | relative hrelative => cases hbelow.symm.trans hrelative
    | long hrest hmem hlong =>
      cases hbelow.symm.trans hrest
      rcases Path.mem_pieces_belowRoot hs hmem with rfl | hmem
      · exact absurd hlong (Nat.not_lt_zero _)
      · exact .long hmem hlong
    | full hrest hshort hfull =>
      cases hbelow.symm.trans hrest
      exact .full (fun s hmem => hshort s (hpieces hmem)) d' hfull
    | taken _ _ hmissing hown =>
      obtain ⟨record', hheld⟩ := (d'.holds_iff rg.linked).mpr
        ⟨List.eq_nil_of_length_eq_zero hmissing, hown⟩
      exact .taken (Option.isSome_iff_ne_none.mpr fun hnone => hfree.mp hnone record' hheld)
  | none =>
    obtain ⟨_, _, last, _, changes, -, -, -, hattach⟩ :=
      attach_accepted rg.linked rg.numbered d he record
    rcases rg.attach (Path.ofSegments segments) record with
      ⟨_, _, _, hrefused, -⟩ | ⟨rest, h, changes', id, hrest, hattach', rh, ha⟩
    · cases hattach.symm.trans hrefused
    cases hbelow.symm.trans hrest
    rw [htokens] at ha
    refine .inr ⟨h, changes', id, hattach', fun e hrefuses => ?_, rh, ha⟩
    rw [he] at hverdict
    cases hverdict with
    | free hrest hshort hroom hvacant =>
      cases hbelow.symm.trans hrest
      refine (refuses_iff rg.linked (fun s hmem => hshort s (hpieces hmem)) d').mp
        ⟨e, hrefuses⟩ ⟨hfree.mpr fun record' => ha.not_held, hroom⟩

/-! ### Putting something back -/

/-- `h` is `g` after the attempt to put the record back at the clean path of the segments. -/
structure PutBack (g : Graph ρ) (segments : List Segment) (record : ρ) (h : Graph ρ) : Prop where
  /-- It succeeds exactly if no driver is mounted at the path, and the nodes that are missing on the
  way find room. -/
  mounted_iff : ∃ front missing deepest, g.Deepest segments front missing deepest ∧
    ((∃ id, h.mounted? (Path.ofSegments segments) = some (id, record)) ↔
      g.mounted? (Path.ofSegments segments) = none ∧ g.live + missing.length ≤ g.limit)
  /-- If it fails, all nodes are what they were. -/
  refused : (¬ ∃ id, h.mounted? (Path.ofSegments segments) = some (id, record)) →
    ∀ j, h.node? j = g.node? j
  /-- No other path holds another record than before. -/
  others : ∀ other r, other ≠ segments → (h.Holds other r ↔ g.Holds other r)
  /-- No other node owns another record than before. -/
  kept : ∀ j, h.record? j = g.record? j ∨
    g.record? j = none ∧ h.mounted? (Path.ofSegments segments) = some (j, record)

/-- **Attaching a record that no node owns** puts it back if that can be done. -/
theorem Regular.putBack (rg : g.Regular) (hs : ∀ s ∈ segments, s ≠ [] ∧ Path.delimiter ∉ s)
    (hshort : ∀ s ∈ segments, Path.byteLength s ≤ Limits.maxFilenameLength)
    (hfresh : ∀ j, g.record? j ≠ some record) {changes : List Change}
    {answer : Except Error NodeId}
    (hattach : g.attach (Path.ofSegments segments) record = .ok ⟨h, changes, answer⟩) :
    g.PutBack segments record h := by
  obtain ⟨front, missing, deepest, -, d⟩ :=
    exists_deepest rg.linked ((Path.ofSegments segments).drop 1)
  rw [Path.tokens_belowRoot hs] at d
  have hiff := refuses_iff rg.linked hshort d
  rcases rg.attach_clean hs record with
    ⟨h', changes', e, heq, hrefuses, ha, rh⟩ | ⟨h', changes', id, heq, hfree, rh, ha⟩
  · cases hattach.symm.trans heq
    have hrecord : ∀ j, h.record? j = g.record? j := fun j => by rw [record?, record?, ha.node]
    have hmounted : ¬ ∃ id, h.mounted? (Path.ofSegments segments) = some (id, record) := by
      rintro ⟨id, hm⟩
      exact hfresh id ((hrecord id).symm.trans ((mounted?_eq_some rh.linked hs).mp hm).2)
    exact ⟨⟨front, missing, deepest, d, iff_of_false hmounted (hiff.mp ⟨e, hrefuses⟩)⟩,
      fun _ => ha.node, fun other r _ => holds_congr ha.node, fun j => .inl (hrecord j)⟩
  · cases hattach.symm.trans heq
    have hm := ha.mounted rh.linked hs
    refine ⟨⟨front, missing, deepest, d, iff_of_true ⟨id, hm⟩ ?_⟩, fun hnot => absurd ⟨id, hm⟩ hnot,
      fun other r hne => by rw [ha.holds_iff, if_neg hne], fun j => ?_⟩
    · refine Decidable.not_not.mp (mt hiff.mpr ?_)
      rintro ⟨e, hrefuses⟩
      exact hfree e hrefuses
    · rw [ha.record?_eq]
      split
      · rename_i hj
        exact .inr ⟨hj ▸ ha.record?_eq_none, hj ▸ hm⟩
      · exact .inl rfl

/-! ### Mounting something new -/

/-- Why nothing can be mounted at a path, if so. -/
inductive Bars (g : Graph ρ) (path : Path) : Error → Prop where
  /-- The path is empty, or does not begin with a delimiter. -/
  | relative (h : Path.absolute? path = none) : Bars g path .invalidArgument
  | refuses {clean : Path} {e : Error} (h : Path.absolute? path = some clean)
      (hrefuses : g.Refuses (Path.segments path) e) : Bars g path e

/-- `h` is `g` with a record mounted at a path, where nothing barred it. -/
structure Mounted (g : Graph ρ) (path : Path) (record : ρ) (h : Graph ρ) : Prop where
  free : ∀ e, ¬ g.Bars path e
  /-- The record is at the clean path, and was given to a node that owned none. -/
  mounted : ∃ clean id, Path.absolute? path = some clean ∧ h.mounted? clean = some (id, record) ∧
    g.Gives id record h
  /-- No other path holds another record than before. -/
  others : ∀ other r, other ≠ Path.segments path → (h.Holds other r ↔ g.Holds other r)

/-- **Mounting at a path** succeeds exactly if nothing bars it, and else all nodes are what they
were. -/
theorem Regular.mount_cases (rg : g.Regular) {path clean : Path}
    (habs : Path.absolute? path = some clean) (record : ρ) :
    (∃ h changes e, g.mount clean record = .ok ⟨h, changes, .error e⟩ ∧ g.Bars path e ∧
      ∀ j, h.node? j = g.node? j) ∨
    ∃ h changes id, g.mount clean record = .ok ⟨h, changes, .ok id⟩ ∧
      g.Mounted path record h := by
  have hclean := Path.absolute?_eq_some habs
  subst hclean
  have hs : ∀ s ∈ Path.segments path, s ≠ [] ∧ Path.delimiter ∉ s := fun _ => Path.mem_segments
  rw [Graph.mount]
  split
  · exact .inl ⟨g, [], _, rfl, .refuses habs (.taken ‹_›), fun _ => rfl⟩
  rcases rg.attach_clean hs record with
    ⟨h, changes, e, hattach, hrefuses, ha, -⟩ | ⟨h, changes, id, hattach, hfree, rh, ha⟩
  · exact .inl ⟨h, changes, e, hattach, .refuses habs hrefuses, ha.node⟩
  · refine .inr ⟨h, changes, id, hattach, fun e hbars => ?_, ?_, fun other r hne => ?_⟩
    · cases hbars with
      | relative hnone => cases habs.symm.trans hnone
      | refuses _ hrefuses => exact hfree _ hrefuses
    · exact ⟨_, id, habs, ha.mounted rh.linked hs, ha.record?_eq_none, ha.record?_eq⟩
    · rw [ha.holds_iff, if_neg hne]

end VirtualFs.Mount.Graph
