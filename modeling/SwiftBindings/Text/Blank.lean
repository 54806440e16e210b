/-
**Blanks and trimming.**

A blank is a character with the Unicode property White_Space. Trimming removes blanks from both ends
of a text and keeps everything between the first and the last other character.
-/

namespace SwiftBindings.Text

/-- A character with the property White_Space. -/
def isBlank (c : Char) : Bool :=
  let code := c.toNat
  (9 ≤ code && code ≤ 13) || code == 0x20 || code == 0x85 || code == 0xA0 || code == 0x1680 ||
    (0x2000 ≤ code && code ≤ 0x200A) || code == 0x2028 || code == 0x2029 || code == 0x202F ||
    code == 0x205F || code == 0x3000

/-- A control character: the Unicode category Cc. -/
def isControl (c : Char) : Bool :=
  c.toNat < 0x20 || (0x7F ≤ c.toNat && c.toNat ≤ 0x9F)

/-- The list without the members at its end that satisfy the test. -/
def dropEndWhile (test : Char → Bool) (chars : List Char) : List Char :=
  (chars.reverse.dropWhile test).reverse

/-- The list without the members at both ends that satisfy the test. -/
def trimWhile (test : Char → Bool) (chars : List Char) : List Char :=
  dropEndWhile test (chars.dropWhile test)

end SwiftBindings.Text
