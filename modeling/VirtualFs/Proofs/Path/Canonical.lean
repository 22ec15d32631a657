import VirtualFs.Proofs.Path.Clean

/-!
# The clean form is canonical

The clean form of a path is its segments with a delimiter before each, without the first delimiter
if the path does not begin with one (`clean_eq`).  So it depends on nothing but the segments of the
path and whether it begins with a delimiter, and both can be read off it again.

* `infix_collapse`, `getLast?_clean`: a clean path has no two delimiters side by side and none at
  its end.
* `segments_clean`, `head?_clean`: what cleaning leaves of a path.
* `clean_canonical`: two paths have one clean form if and only if they have the same segments and
  both or neither of them begin with a delimiter; the paths made of segments are clean, and cut
  into tokens they give these segments back.
-/

namespace VirtualFs.Path

/-! ### Runs of delimiters -/

/-- Right behind a delimiter a collapsed path goes on with another character. -/
theorem head?_collapse_true (path : Path) : (collapse true path).head? ≠ some delimiter := by
  induction path with
  | nil => simp [collapse]
  | cons c path ih =>
      by_cases hc : c = delimiter
      · rwa [collapse, if_pos hc, if_pos rfl]
      · simp [collapse, hc]

/-- A collapsed path has no two delimiters side by side. -/
theorem infix_collapse (after : Bool) (path : Path) :
    ¬ [delimiter, delimiter] <:+: collapse after path := by
  induction path generalizing after with
  | nil => simp [collapse]
  | cons c path ih =>
      rw [collapse]
      split
      · split
        · exact ih true
        · rw [List.infix_cons_iff, List.cons_prefix_cons]
          rintro (⟨-, rest, h⟩ | h)
          · exact head?_collapse_true path (h ▸ rfl)
          · exact ih true h
      · rename_i hc
        rw [List.infix_cons_iff, List.cons_prefix_cons]
        rintro (⟨rfl, -⟩ | h)
        · exact hc rfl
        · exact ih false h

/-- Collapsing leaves the last character of a path, if this is no delimiter. -/
theorem getLast?_collapse {path : Path} {c : Char} (h : path.getLast? = some c)
    (hc : c ≠ delimiter) (after : Bool) : (collapse after path).getLast? = some c := by
  induction path generalizing after with
  | nil => simp at h
  | cons d path ih =>
      by_cases hpath : path = []
      · obtain rfl : d = c := by simpa [hpath] using h
        simp [hpath, collapse, hc]
      · rw [List.getLast?_cons_of_ne_nil hpath] at h
        rw [collapse]
        split
        · split
          · exact ih h true
          · rw [List.getLast?_cons, ih h true, Option.getD_some]
        · rw [List.getLast?_cons, ih h false, Option.getD_some]

/-- A clean path has no delimiter at its end. -/
theorem getLast?_clean (path : Path) : (clean path).getLast? ≠ some delimiter := by
  rw [clean]
  cases hlast : (dropTrailing path).getLast? with
  | none =>
      rw [List.getLast?_eq_none_iff.mp hlast]
      simp [collapse]
  | some c =>
      have hc : c ≠ delimiter := fun e => getLast?_dropTrailing path (e ▸ hlast)
      rw [getLast?_collapse hlast hc]
      simpa using hc

/-! ### The clean form in terms of segments -/

/-- Dropping delimiters at the end leaves the beginning of a path that has a segment. -/
theorem head?_dropTrailing {path : Path} (h : dropTrailing path ≠ []) :
    (dropTrailing path).head? = path.head? := by
  obtain ⟨n, hpath⟩ := exists_eq_dropTrailing path
  conv => rhs; rw [hpath, List.head?_append_of_ne_nil _ h]

theorem dropTrailing_eq_nil {path : Path} : dropTrailing path = [] ↔ segments path = [] := by
  rw [← segments_dropTrailing path]
  refine ⟨fun h => by rw [h, segments_nil], fun h => ?_⟩
  by_contra hne
  exact segments_ne_nil hne (getLast?_dropTrailing path) h

/-- **The clean form of a path** is its segments with a delimiter before each, but without the first
delimiter if the path does not begin with one. -/
theorem clean_eq (path : Path) : clean path =
    (ofSegments (segments path)).drop (if path.head? = some delimiter then 0 else 1) := by
  by_cases hnil : dropTrailing path = []
  · rw [clean, hnil, dropTrailing_eq_nil.mp hnil]
    simp [collapse]
  · rw [← head?_dropTrailing hnil, ← segments_dropTrailing path, clean]
    have hlast := getLast?_dropTrailing path
    cases hdrop : dropTrailing path with
    | nil => exact absurd hdrop hnil
    | cons c rest =>
        rw [hdrop] at hlast
        obtain ⟨piece, more, hpm⟩ := exists_pieces_eq_cons rest
        by_cases hc : c = delimiter
        · have hcs : pieces (c :: rest) = [] :: pieces rest := by rw [pieces, if_pos hc]
          rw [(collapse_eq hcs hlast).1, hc, segments_delimiter]
          simp [segments]
        · have hcs := pieces_cons_of_ne hc hpm
          rw [(collapse_eq hcs hlast).1, segments, hcs]
          simp [hc]

/-- The segments of a path can be read off its clean form. -/
@[simp] theorem segments_clean (path : Path) : segments (clean path) = segments path := by
  have hofs : segments (ofSegments (segments path)) = segments path :=
    segments_ofSegments fun _ => mem_segments
  rw [clean_eq]
  split
  · exact hofs
  · cases hs : segments path with
    | nil => rfl
    | cons s segs =>
        rw [hs, ofSegments_cons, segments_delimiter] at hofs
        simpa using hofs

/-- Whether a path begins with a delimiter can be read off its clean form, unless nothing but
delimiters was cleaned away. -/
theorem head?_clean {path : Path} (h : segments path ≠ []) :
    (clean path).head? = some delimiter ↔ path.head? = some delimiter := by
  cases hs : segments path with
  | nil => exact absurd hs h
  | cons s segs =>
      obtain ⟨hne, hdel⟩ := mem_segments (hs ▸ List.mem_cons_self : s ∈ segments path)
      rw [clean_eq, hs]
      split
      · simpa
      · cases s with
        | nil => exact absurd rfl hne
        | cons c s =>
            have : c ≠ delimiter := fun e => hdel (e ▸ List.mem_cons_self)
            simpa [this]

/-- Two paths have one clean form if and only if they have the same segments and, unless these are
none, both or neither of them begin with a delimiter. -/
theorem clean_eq_clean {path other : Path} : clean path = clean other ↔
    segments path = segments other ∧ (segments path ≠ [] →
      (path.head? = some delimiter ↔ other.head? = some delimiter)) := by
  constructor
  · intro h
    have hsegs : segments path = segments other := by
      rw [← segments_clean path, h, segments_clean]
    exact ⟨hsegs, fun hne => by rw [← head?_clean hne, h, head?_clean (hsegs ▸ hne)]⟩
  · rintro ⟨hsegs, hhead⟩
    rw [clean_eq, clean_eq, ← hsegs]
    by_cases hne : segments path = []
    · simp [hne]
    · simp only [hhead hne]

/-- Cleaning a clean path changes nothing. -/
theorem clean_clean (path : Path) : clean (clean path) = clean path :=
  clean_eq_clean.mpr ⟨segments_clean path, fun h => head?_clean (segments_clean path ▸ h)⟩

/-- The clean form of a path that is not empty is absolute if and only if the path begins with a
delimiter. -/
theorem isAbsolute_clean {path : Path} (h : path ≠ []) :
    isAbsolute (clean path) = true ↔ path.head? = some delimiter := by
  have hnone : absolute? path = none ↔ path.head? ≠ some delimiter := absolute?_eq_none
  rw [absolute?, if_neg (by simpa using h)] at hnone
  by_cases habs : isAbsolute (clean path) = true <;> simp_all

/-- A path made of segments is clean. -/
theorem clean_ofSegments {segs : List Segment} (h : ∀ s ∈ segs, s ≠ [] ∧ delimiter ∉ s) :
    clean (ofSegments segs) = ofSegments segs := by
  rw [clean_eq, segments_ofSegments h]
  cases segs with
  | nil => rfl
  | cons s segs => simp

/-! ### The canonical form -/

/-- **The clean form is canonical.**  It has no two delimiters side by side and none at the end, it
has the segments of the path, and cleaning it again changes nothing; it is absolute if and only if
the path begins with a delimiter.  Two paths have one clean form if and only if they have the same
segments and, unless these are none, both or neither of them begin with a delimiter.  In the other
direction every list of segments makes a clean path, and what is below its root has these segments
for its tokens. -/
theorem clean_canonical :
    (∀ path : Path,
      ¬ [delimiter, delimiter] <:+: clean path ∧
      (clean path).getLast? ≠ some delimiter ∧
      segments (clean path) = segments path ∧
      clean (clean path) = clean path ∧
      (path ≠ [] → (isAbsolute (clean path) = true ↔ path.head? = some delimiter))) ∧
    (∀ path other : Path, clean path = clean other ↔
      segments path = segments other ∧ (segments path ≠ [] →
        (path.head? = some delimiter ↔ other.head? = some delimiter))) ∧
    (∀ segs : List Segment, (∀ s ∈ segs, s ≠ [] ∧ delimiter ∉ s) →
      clean (ofSegments segs) = ofSegments segs ∧
      ∃ rest, belowRoot? (ofSegments segs) = some rest ∧ tokens rest = segs) := by
  refine ⟨fun path => ⟨?_, ?_, segments_clean path, clean_clean path, isAbsolute_clean⟩,
    fun path other => clean_eq_clean, fun segs h => ⟨clean_ofSegments h, ?_⟩⟩
  · exact infix_collapse false _
  · exact getLast?_clean path
  · exact ⟨_, belowRoot?_ofSegments segs, tokens_belowRoot h⟩

/-- Two spellings of one path, and a relative path with the same segments. -/
example : clean "//dev///uart0/".toList = "/dev/uart0".toList ∧
    clean "/dev/uart0".toList = "/dev/uart0".toList ∧
    clean "dev//uart0".toList = "dev/uart0".toList := by decide

end VirtualFs.Path
