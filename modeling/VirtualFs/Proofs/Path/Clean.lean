import VirtualFs.Proofs.Path.Tokens

/-!
# Clean absolute paths

A clean absolute path is its segments with a delimiter before each.  So it is determined by its
segments, and below the root its tokens are its segments.

* `clean_eq_ofSegments`: the clean form of an absolute path is `ofSegments` of the path's segments.
* `tokens_belowRoot`: the tokens below the root of `ofSegments segs` are `segs`.
* `absolute?_eq_some`, `absolute?_eq_none`: which paths callers may use, and what they are turned
  into.
-/

namespace VirtualFs.Path

/-! ### Segments -/

theorem exists_pieces_eq_cons (path : Path) : ∃ piece more, pieces path = piece :: more := by
  cases path with
  | nil => exact ⟨[], [], rfl⟩
  | cons c path =>
      rw [pieces]
      split
      · exact ⟨_, _, rfl⟩
      · split <;> exact ⟨_, _, rfl⟩

theorem pieces_cons_of_ne {c : Char} {path : Path} {piece : Segment} {more : List Segment}
    (hc : c ≠ delimiter) (h : pieces path = piece :: more) :
    pieces (c :: path) = (c :: piece) :: more := by
  rw [pieces, if_neg hc, h]

@[simp] theorem segments_nil : segments [] = [] := rfl

@[simp] theorem segments_delimiter (path : Path) :
    segments (delimiter :: path) = segments path := by
  simp [segments, pieces]

/-- What a segment is: a text that is not empty and has no delimiter in it. -/
theorem mem_segments {path : Path} {s : Segment} (h : s ∈ segments path) :
    s ≠ [] ∧ delimiter ∉ s := by
  have hne : s ≠ [] := by
    intro e
    simp [segments, e] at h
  refine ⟨hne, ?_⟩
  have hp : s ∈ pieces path := (List.mem_filter.mp h).1
  clear h
  induction path generalizing s with
  | nil => simp [pieces] at hp; exact absurd hp hne
  | cons c path ih =>
      obtain ⟨piece, more, hpm⟩ := exists_pieces_eq_cons path
      by_cases hc : c = delimiter
      · rw [pieces, if_pos hc] at hp
        rcases List.mem_cons.mp hp with rfl | hp
        · exact absurd rfl hne
        · exact ih hne hp
      · rw [pieces_cons_of_ne hc hpm] at hp
        rcases List.mem_cons.mp hp with rfl | hp
        · by_cases hpe : piece = []
          · simp [hpe, Ne.symm hc]
          · have := ih hpe (hpm ▸ List.mem_cons_self)
            simp [this, Ne.symm hc]
        · exact ih hne (hpm ▸ List.mem_cons_of_mem _ hp)

theorem pieces_append_delimiter (path : Path) :
    pieces (path ++ [delimiter]) = pieces path ++ [[]] := by
  induction path with
  | nil => simp [pieces]
  | cons c path ih =>
      obtain ⟨piece, more, hpm⟩ := exists_pieces_eq_cons path
      by_cases hc : c = delimiter
      · simp [pieces, hc, ih]
      · rw [List.cons_append, pieces_cons_of_ne hc hpm,
          pieces_cons_of_ne hc (ih.trans (by rw [hpm]; rfl))]
        rfl

theorem segments_append_replicate (path : Path) (n : Nat) :
    segments (path ++ List.replicate n delimiter) = segments path := by
  induction n generalizing path with
  | zero => simp
  | succ n ih =>
      rw [List.replicate_succ', ← List.append_assoc, segments, pieces_append_delimiter]
      simpa [segments] using ih path

/-! ### Dropping delimiters at the end -/

/-- What `dropTrailing` drops are delimiters. -/
theorem exists_eq_dropTrailing (path : Path) :
    ∃ n, path = dropTrailing path ++ List.replicate n delimiter := by
  refine ⟨(path.reverse.takeWhile (· = delimiter)).length, ?_⟩
  have hall : path.reverse.takeWhile (· = delimiter) =
      List.replicate (path.reverse.takeWhile (· = delimiter)).length delimiter :=
    List.eq_replicate_of_mem fun c hc => by
      simpa using List.all_eq_true.mp List.all_takeWhile c hc
  have hsplit := List.takeWhile_append_dropWhile (p := (· = delimiter)) (l := path.reverse)
  rw [dropTrailing, ← List.reverse_replicate, ← hall, ← List.reverse_append, hsplit,
    List.reverse_reverse]

@[simp] theorem segments_dropTrailing (path : Path) :
    segments (dropTrailing path) = segments path := by
  obtain ⟨n, h⟩ := exists_eq_dropTrailing path
  conv => rhs; rw [h, segments_append_replicate]

theorem getLast?_dropTrailing (path : Path) : (dropTrailing path).getLast? ≠ some delimiter := by
  intro h
  rw [dropTrailing, List.getLast?_reverse] at h
  have := List.head?_dropWhile_not (· = delimiter) path.reverse
  rw [h] at this
  simp at this

theorem segments_ne_nil {path : Path} (hne : path ≠ []) (h : path.getLast? ≠ some delimiter) :
    segments path ≠ [] := by
  induction path with
  | nil => exact absurd rfl hne
  | cons c path ih =>
      by_cases hc : c = delimiter
      · have hp : path ≠ [] := by
          rintro rfl
          exact h (by simp [hc])
        rw [hc, segments_delimiter]
        refine ih hp fun hl => h ?_
        rw [List.getLast?_cons, hl]
        rfl
      · obtain ⟨piece, more, hpm⟩ := exists_pieces_eq_cons path
        simp [segments, pieces_cons_of_ne hc hpm]

/-! ### Collapsing runs of delimiters -/

@[simp] theorem ofSegments_nil : ofSegments [] = [] := rfl

@[simp] theorem ofSegments_cons (s : Segment) (segs : List Segment) :
    ofSegments (s :: segs) = delimiter :: (s ++ ofSegments segs) := by
  simp [ofSegments]

theorem cons_drop_ofSegments {segs : List Segment} (h : segs ≠ []) :
    delimiter :: (ofSegments segs).drop 1 = ofSegments segs := by
  cases segs with
  | nil => exact absurd rfl h
  | cons s segs => simp

/-- **Collapsing in terms of pieces.**  A path that does not end in a delimiter collapses to its
first piece and its later segments, or, right behind a delimiter, to its segments with delimiters
between them. -/
theorem collapse_eq {path : Path} {piece : Segment} {more : List Segment}
    (hp : pieces path = piece :: more) (h : path.getLast? ≠ some delimiter) :
    collapse false path = piece ++ ofSegments (more.filter (! ·.isEmpty)) ∧
      collapse true path = (ofSegments (segments path)).drop 1 := by
  induction path generalizing piece more with
  | nil =>
      cases hp
      exact ⟨rfl, rfl⟩
  | cons c path ih =>
      obtain ⟨piece', more', hpm⟩ := exists_pieces_eq_cons path
      have hl : path ≠ [] → path.getLast? ≠ some delimiter := fun _ e => h (by
        rw [List.getLast?_cons, e]; rfl)
      by_cases hc : c = delimiter
      · have hpath : path ≠ [] := by
          rintro rfl
          exact h (by simp [hc])
        rw [pieces, if_pos hc] at hp
        cases hp
        obtain ⟨-, ht⟩ := ih hpm (hl hpath)
        refine ⟨?_, ?_⟩
        · rw [collapse, if_pos hc, if_neg (by simp), ht, hc]
          exact cons_drop_ofSegments (segments_ne_nil hpath (hl hpath))
        · rw [collapse, if_pos hc, if_pos rfl, ht, hc, segments_delimiter]
      · rw [pieces_cons_of_ne hc hpm] at hp
        cases hp
        have hf : collapse false path = piece' ++ ofSegments (more.filter (! ·.isEmpty)) := by
          by_cases hpath : path = []
          · subst hpath
            cases hpm
            rfl
          · exact (ih hpm (hl hpath)).1
        refine ⟨?_, ?_⟩
        · rw [collapse, if_neg hc, hf]
          rfl
        · rw [collapse, if_neg hc, hf, segments, pieces_cons_of_ne hc hpm]
          simp

/-- **The clean form of an absolute path** is its segments with a delimiter before each. -/
theorem clean_eq_ofSegments {path : Path} (h : isAbsolute (clean path) = true) :
    clean path = ofSegments (segments path) := by
  rw [← segments_dropTrailing path]
  rw [clean] at h ⊢
  have hlast := getLast?_dropTrailing path
  cases hp : dropTrailing path with
  | nil => rfl
  | cons c rest =>
      rw [hp] at h hlast
      obtain ⟨piece, more, hpm⟩ := exists_pieces_eq_cons rest
      by_cases hc : c = delimiter
      · have hcs : pieces (c :: rest) = [] :: pieces rest := by rw [pieces, if_pos hc]
        rw [(collapse_eq hcs hlast).1, hc, segments_delimiter]
        rfl
      · rw [(collapse_eq (pieces_cons_of_ne hc hpm) hlast).1] at h
        simp [isAbsolute, hc] at h

/-! ### Reading a clean path -/

/-- The rest of `ofSegments` below the root. -/
theorem belowRoot?_ofSegments (segs : List Segment) :
    belowRoot? (ofSegments segs) = some ((ofSegments segs).drop 1) := by
  cases segs with
  | nil => rfl
  | cons s segs => simp [belowRoot?]

/-- **The tokens below the root** of a path made of segments are these segments. -/
theorem tokens_belowRoot {segs : List Segment} (h : ∀ s ∈ segs, s ≠ [] ∧ delimiter ∉ s) :
    tokens ((ofSegments segs).drop 1) = segs := by
  induction segs with
  | nil => simp
  | cons s segs ih =>
      obtain ⟨hne, hs⟩ := h s List.mem_cons_self
      have ih := ih fun t ht => h t (List.mem_cons_of_mem _ ht)
      cases segs with
      | nil => simpa using tokens_self hs hne
      | cons t segs =>
          simp only [ofSegments_cons, List.drop_succ_cons, List.drop_zero] at ih ⊢
          rw [tokens_append hs, ih]

/-- The segments of a path made of segments are these. -/
theorem segments_ofSegments {segs : List Segment} (h : ∀ s ∈ segs, s ≠ [] ∧ delimiter ∉ s) :
    segments (ofSegments segs) = segs := by
  induction segs with
  | nil => rfl
  | cons s segs ih =>
      obtain ⟨hne, hs⟩ := h s List.mem_cons_self
      have ih := ih fun t ht => h t (List.mem_cons_of_mem _ ht)
      rw [ofSegments_cons, segments_delimiter]
      cases segs with
      | nil => simp [segments, pieces_self hs, hne]
      | cons t segs =>
          rw [ofSegments_cons, segments, pieces_append hs,
            List.filter_cons_of_pos (by simpa using hne)]
          rw [ofSegments_cons, segments_delimiter] at ih
          exact congrArg (s :: ·) ih

/-- A path that a caller may use, in clean form, is made of the segments of the path. -/
theorem absolute?_eq_some {path clean : Path} (h : absolute? path = some clean) :
    clean = ofSegments (segments path) := by
  rw [absolute?] at h
  split at h
  · simp at h
  · split at h
    · rename_i habs
      cases h
      exact clean_eq_ofSegments habs
    · simp at h

/-- **A caller may use** the paths that begin with a delimiter. -/
theorem absolute?_eq_none {path : Path} :
    absolute? path = none ↔ path.head? ≠ some delimiter := by
  have hcollapse : ∀ path, isAbsolute (collapse false path) = isAbsolute path := by
    intro path
    cases path with
    | nil => rfl
    | cons c path =>
        rw [collapse]
        split <;> rfl
  rw [absolute?, clean, hcollapse]
  cases path with
  | nil => simp
  | cons c path =>
      obtain ⟨n, hpath⟩ := exists_eq_dropTrailing (c :: path)
      rw [if_neg (by simp), List.head?_cons, ne_eq, Option.some.injEq]
      cases hdrop : dropTrailing (c :: path) with
      | nil =>
          -- there are only delimiters
          rw [hdrop, List.nil_append] at hpath
          have hc : c = delimiter := List.eq_of_mem_replicate (hpath ▸ List.mem_cons_self)
          simp [isAbsolute, hc]
      | cons c' rest =>
          rw [hdrop, List.cons_append] at hpath
          rw [(List.cons.inj hpath).1]
          simp [isAbsolute]

/-- The clean path that is used for a path is its clean form, if it begins with a delimiter. -/
theorem head?_of_absolute? {path used : Path} (h : absolute? path = some used) :
    path.head? = some delimiter ∧ used = clean path := by
  refine ⟨by_contra fun hhead => ?_, ?_⟩
  · cases h.symm.trans (absolute?_eq_none.mpr hhead)
  · rw [absolute?] at h
    split at h
    · cases h
    · split at h <;> cases h
      rfl

end VirtualFs.Path
