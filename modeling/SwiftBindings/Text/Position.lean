/-
**Places in a text.**

Offsets count UTF-8 bytes. `takeBytes?` and `slice?` cut a text at offsets, and answer nothing when
an offset falls inside a character. A position counts lines and columns from one: a line ends at a
line feed, and a column is a number of characters.
-/

namespace SwiftBindings.Text

/-- Number of UTF-8 bytes of a list of characters. -/
def byteLength (chars : List Char) : Nat :=
  chars.foldl (fun size c => size + c.utf8Size) 0

/-! ### Cutting at offsets -/

/-- The first `count` bytes, when a character ends there. -/
def takeBytes? : Nat → List Char → Option (List Char)
  | 0, _ => some []
  | _ + 1, [] => none
  | count + 1, c :: rest =>
    if c.utf8Size ≤ count + 1 then (takeBytes? (count + 1 - c.utf8Size) rest).map (c :: ·) else none

/-- What follows the first `count` bytes, when a character ends there. -/
def dropBytes? : Nat → List Char → Option (List Char)
  | 0, chars => some chars
  | _ + 1, [] => none
  | count + 1, c :: rest =>
    if c.utf8Size ≤ count + 1 then dropBytes? (count + 1 - c.utf8Size) rest else none

/-- The characters from one offset to another, when both lie between characters and are in order. -/
def slice? (chars : List Char) (start stop : Nat) : Option (List Char) :=
  if start ≤ stop then (dropBytes? start chars).bind (takeBytes? (stop - start)) else none

/-- A character in front takes its bytes of the count. -/
theorem takeBytes?_cons (count : Nat) (c : Char) (chars : List Char) :
    takeBytes? (count + c.utf8Size) (c :: chars) = (takeBytes? count chars).map (c :: ·) := by
  obtain ⟨size, same⟩ := Nat.exists_eq_add_one_of_ne_zero (Nat.ne_of_gt c.utf8Size_pos)
  rw [same, ← Nat.add_assoc, takeBytes?, same, if_pos (by omega), Nat.add_assoc, Nat.add_sub_cancel]

theorem dropBytes?_cons (count : Nat) (c : Char) (chars : List Char) :
    dropBytes? (count + c.utf8Size) (c :: chars) = dropBytes? count chars := by
  obtain ⟨size, same⟩ := Nat.exists_eq_add_one_of_ne_zero (Nat.ne_of_gt c.utf8Size_pos)
  rw [same, ← Nat.add_assoc, dropBytes?, same, if_pos (by omega), Nat.add_assoc, Nat.add_sub_cancel]

/-! ### Lines and columns -/

/-- A place in a text; both numbers start at one. -/
structure Position where
  /-- Line number. -/
  line : Nat
  /-- Character number within the line. -/
  column : Nat
  deriving Repr, DecidableEq

/-- The place right after a character. -/
def Position.after (position : Position) (c : Char) : Position :=
  if c = '\n' then ⟨position.line + 1, 1⟩ else ⟨position.line, position.column + 1⟩

/-- The place right after a list of characters that starts a text. -/
def Position.afterAll (chars : List Char) : Position :=
  chars.foldl Position.after ⟨1, 1⟩

/-- The place of a byte offset. An offset past the end means the end, and so does one that falls
inside a character. -/
def Position.ofOffset (text : String) (offset : Nat) : Position :=
  Position.afterAll ((takeBytes? offset text.toList).getD text.toList)

end SwiftBindings.Text
