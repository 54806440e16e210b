/-
**Ranges of code points.**

Character classes beyond ASCII are lists of inclusive ranges, kept in increasing order and split
into lists of moderate length.
-/

namespace SwiftBindings.Text

/-- An inclusive range of code points. -/
abbrev CodeRange := Nat × Nat

/-- The character lies in the range. -/
def CodeRange.contains (range : CodeRange) (c : Char) : Bool :=
  range.1 ≤ c.toNat && c.toNat ≤ range.2

/-- The character lies in some range of the lists. -/
def CodeRange.anyMember (ranges : List (List CodeRange)) (c : Char) : Bool :=
  ranges.any fun part => part.any fun range => CodeRange.contains range c

end SwiftBindings.Text
