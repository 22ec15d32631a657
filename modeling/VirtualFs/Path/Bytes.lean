/-!
# Text measured in bytes

Paths are lists of characters, but their lengths and the positions in them count bytes of UTF-8.
Here: the bytes of a text, their number, and the rest of a text from a byte position.

* `length_bytes`: `byteLength` counts the bytes.
* `dropBytes_byteLength_append`: after the bytes of a first part comes the second part.
* `dropBytes` has no answer inside a character or past the end.
-/

namespace VirtualFs.Path

/-- The UTF-8 bytes of a text. -/
def bytes (text : List Char) : List UInt8 :=
  text.flatMap String.utf8EncodeChar

/-- The number of UTF-8 bytes of a text. -/
def byteLength : List Char → Nat
  | [] => 0
  | c :: rest => c.utf8Size + byteLength rest

@[simp] theorem byteLength_nil : byteLength [] = 0 := rfl

@[simp] theorem byteLength_cons (c : Char) (rest : List Char) :
    byteLength (c :: rest) = c.utf8Size + byteLength rest := rfl

@[simp] theorem byteLength_append (a b : List Char) :
    byteLength (a ++ b) = byteLength a + byteLength b := by
  induction a with
  | nil => simp
  | cons c rest ih => simp [ih, Nat.add_assoc]

theorem length_bytes (text : List Char) : (bytes text).length = byteLength text := by
  induction text with
  | nil => rfl
  | cons c rest ih => simp [bytes] at ih ⊢; omega

/-- The text from byte position `n` on; nothing inside a character or past the end. -/
def dropBytes : Nat → List Char → Option (List Char)
  | 0, text => some text
  | _ + 1, [] => none
  | n + 1, c :: rest =>
    if c.utf8Size ≤ n + 1 then dropBytes (n + 1 - c.utf8Size) rest else none
termination_by _ text => text.length

@[simp] theorem dropBytes_zero (text : List Char) : dropBytes 0 text = some text := by
  simp [dropBytes]

theorem dropBytes_byteLength_append (a b : List Char) :
    dropBytes (byteLength a) (a ++ b) = some b := by
  induction a with
  | nil => simp
  | cons c rest ih =>
    have hpos := c.utf8Size_pos
    obtain ⟨n, hn⟩ : ∃ n, c.utf8Size + byteLength rest = n + 1 :=
      ⟨c.utf8Size + byteLength rest - 1, by omega⟩
    have hle : c.utf8Size ≤ n + 1 := by omega
    have hsub : n + 1 - c.utf8Size = byteLength rest := by omega
    simp [hn, dropBytes, hle, hsub, ih]

/-- The text from byte position `n` on, empty where `dropBytes` has no answer. -/
def tailFrom (n : Nat) (text : List Char) : List Char :=
  (dropBytes n text).getD []

end VirtualFs.Path
