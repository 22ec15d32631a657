import VirtualFs.Path.Bytes

/-!
# Paths

A path is a text whose segments are separated by `/`.  A *clean* path has no delimiter at its end
and never two side by side; the root is then the empty text.  A path is read token by token:
`takeToken?` takes the text up to the first delimiter and drops that one delimiter, and `tokens`
repeats it until nothing is left.

`pieces` is the plain way of cutting at every delimiter, and `segments` its non-empty pieces; on
a clean path below the root the tokens are the segments.
-/

namespace VirtualFs

/-- The text of a path. -/
abbrev Path := List Char

/-- The text between two delimiters of a path. -/
abbrev Segment := List Char

namespace Path

/-- A path as a string. -/
def text (path : Path) : String := String.ofList path

/-- The character between segments. -/
def delimiter : Char := '/'

/-- The path without the delimiters at its end. -/
def dropTrailing (path : Path) : Path :=
  (path.reverse.dropWhile (· = delimiter)).reverse

/-- The path with every run of delimiters made one; `after` says that a delimiter was the last
character kept. -/
def collapse (after : Bool) : Path → Path
  | [] => []
  | c :: rest =>
    if c = delimiter then
      if after then collapse true rest else c :: collapse true rest
    else c :: collapse false rest

/-- The clean form of a path. -/
def clean (path : Path) : Path :=
  collapse false (dropTrailing path)

/-- Empty (the clean root), or beginning with a delimiter. -/
def isAbsolute : Path → Bool
  | [] => true
  | c :: _ => c = delimiter

/-- The clean form of a path that a caller may use: not empty, and absolute once clean. -/
def absolute? (path : Path) : Option Path :=
  if path.isEmpty then none
  else if isAbsolute (clean path) then some (clean path) else none

/-- What follows the leading delimiter; the empty path is the root itself, and a relative path
has no such rest. -/
def belowRoot? : Path → Option Path
  | [] => some []
  | c :: rest => if c = delimiter then some rest else none

/-- The byte position of the first delimiter, or the length if there is none; nothing for the
empty path. -/
def firstDelimiter? (path : Path) : Option Nat :=
  if path.isEmpty then none else some (byteLength (path.takeWhile (· ≠ delimiter)))

/-- The first token and what follows its one delimiter; nothing for the empty path. -/
def takeToken? (path : Path) : Option (Segment × Path) :=
  if path.isEmpty then none
  else some (path.takeWhile (· ≠ delimiter), (path.dropWhile (· ≠ delimiter)).drop 1)

theorem length_lt_of_takeToken? {path rest : Path} {token : Segment}
    (h : takeToken? path = some (token, rest)) : rest.length < path.length := by
  cases path with
  | nil => simp [takeToken?] at h
  | cons c cs =>
    simp only [takeToken?, List.isEmpty_cons, Bool.false_eq_true, if_false, Option.some.injEq,
      Prod.mk.injEq] at h
    have hle : ((c :: cs).dropWhile (· ≠ delimiter)).length ≤ (c :: cs).length :=
      (List.dropWhile_sublist _).length_le
    rw [← h.2, List.length_drop]
    simp only [List.length_cons] at hle ⊢
    omega

/-- All tokens of a path, in order. -/
def tokens (path : Path) : List Segment :=
  match _h : takeToken? path with
  | none => []
  | some (token, rest) => token :: tokens rest
termination_by path.length
decreasing_by exact length_lt_of_takeToken? ‹_›

/-- The texts between the delimiters of a path, empty ones included; never an empty list. -/
def pieces : Path → List Segment
  | [] => [[]]
  | c :: rest =>
    if c = delimiter then [] :: pieces rest
    else match pieces rest with
      | [] => [[c]]
      | piece :: more => (c :: piece) :: more

/-- The non-empty pieces of a path. -/
def segments (path : Path) : List Segment :=
  (pieces path).filter (! ·.isEmpty)

/-- The path with a delimiter before each segment; the root for no segments. -/
def ofSegments (segments : List Segment) : Path :=
  segments.flatMap (delimiter :: ·)

end Path

end VirtualFs
