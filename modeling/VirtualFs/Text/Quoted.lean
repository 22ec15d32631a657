import VirtualFs.Text.Visible

/-!
# Quoted text

A text between double quotes, for people to read: quotes and backslashes get a backslash, the common
control characters their letter, and any other character that does not show by itself its number
in braces.
-/

namespace VirtualFs.Text

/-- A character as it stands between quotes. -/
def escape (c : Char) : List Char :=
  if c = '"' ∨ c = '\\' then ['\\', c]
  else if c = '\n' then ['\\', 'n']
  else if c = '\r' then ['\\', 'r']
  else if c = '\t' then ['\\', 't']
  else if c.toNat = 0 then ['\\', '0']
  else if isVisible c then [c]
  else ['\\', 'u', '{'] ++ Nat.toDigits 16 c.toNat ++ ['}']

/-- A text between quotes. -/
def quoted (text : List Char) : List Char :=
  '"' :: text.flatMap escape ++ ['"']

end VirtualFs.Text
