import VirtualFs.Journal

/-!
# What is shown of the journal

A scenario shows the notices that are at least as severe as a threshold, each with its level in
front.  Where node numbers do not show, a notice whose text has the mark of one is left out, by
whichever part of the text the mark came in (`marksNode`).
-/

namespace VirtualFs.Scenario

/-- The line of a notice, with its level in front. -/
def line (n : Notice) : String :=
  s!"{n.level.name} {n.message}"

/-- The lines of the notices at least as severe as a threshold; none without one. -/
def lines (threshold : Option Level) (notices : List Notice) : List String :=
  match threshold with
  | none => []
  | some level => (notices.filter (·.level.rank ≤ level.rank)).map line

/-- A text occurs in another. -/
def occurs (text : List Char) : List Char → Bool
  | [] => text.isEmpty
  | c :: rest => text.isPrefixOf (c :: rest) || occurs text rest

theorem occurs_iff {text other : List Char} : occurs text other = true ↔ text <:+: other := by
  induction other with
  | nil => simp [occurs]
  | cons c rest ih => simp [occurs, ih, List.infix_cons_iff]

/-- The text of a notice has the mark of a node number in it. -/
def marksNode (n : Notice) : Bool :=
  occurs "(NodeId(".toList n.message.toList

end VirtualFs.Scenario
