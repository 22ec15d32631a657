/-!
# Names for things

A finite table from names to values, as a list without repeated names: a value put under a name
that is in use takes the older one's place, another goes to the end.

* `find?_put`, `find?_remove`: what putting and removing do to a look-up.
-/

namespace VirtualFs

/-- Values under names. -/
abbrev Names (α : Type) := List (String × α)

namespace Names

variable {α : Type}

/-- The value under `name`. -/
def find? (name : String) : Names α → Option α
  | [] => none
  | entry :: rest => if entry.1 = name then some entry.2 else find? name rest

/-- The table with `value` under `name`. -/
def put (name : String) (value : α) : Names α → Names α
  | [] => [(name, value)]
  | entry :: rest =>
    if entry.1 = name then (name, value) :: rest else entry :: put name value rest

/-- The table with nothing under `name`. -/
def remove (name : String) (entries : Names α) : Names α :=
  entries.filter (·.1 ≠ name)

theorem find?_put (name other : String) (value : α) (entries : Names α) :
    find? other (put name value entries) =
      if other = name then some value else find? other entries := by
  induction entries with
  | nil => simp [put, find?, eq_comm]
  | cons entry rest ih =>
    by_cases h : entry.1 = name
    · by_cases ho : other = name
      · simp [put, find?, h, ho]
      · have hn : name ≠ other := fun e => ho e.symm
        simp [put, find?, h, ho, hn]
    · by_cases he : entry.1 = other
      · have ho : other ≠ name := fun e => h (he.trans e)
        simp [put, find?, he, ho]
      · simp [put, find?, h, he, ih]

theorem find?_remove (name other : String) (entries : Names α) :
    find? other (remove name entries) = if other = name then none else find? other entries := by
  induction entries with
  | nil => simp [remove, find?]
  | cons entry rest ih =>
    by_cases h : entry.1 = name
    · have hr : remove name (entry :: rest) = remove name rest := by simp [remove, h]
      by_cases ho : other = name
      · rw [hr, ih]; simp [ho]
      · have hn : entry.1 ≠ other := fun e => ho (e.symm.trans h)
        simp [hr, ih, ho, find?, hn]
    · have hr : remove name (entry :: rest) = entry :: remove name rest := by simp [remove, h]
      by_cases he : entry.1 = other
      · have ho : other ≠ name := fun e => h (he.trans e)
        simp [hr, find?, he, ho]
      · simp [hr, find?, he, ih]

end Names

end VirtualFs
