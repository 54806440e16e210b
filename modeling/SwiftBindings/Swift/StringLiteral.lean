/-
**String literals of the generated code.**

The body of a literal escapes the backslash, the quote and every control character: the common ones
by a letter, the others by their code point in hexadecimal. All other characters stand for
themselves.
-/

import SwiftBindings.Text.Blank

namespace SwiftBindings.Swift

open SwiftBindings.Text

/-- How one character is written inside a string literal. -/
def escapeChar (c : Char) : List Char :=
  match c with
  | '\\' => ['\\', '\\']
  | '"' => ['\\', '"']
  | '\n' => ['\\', 'n']
  | '\r' => ['\\', 'r']
  | '\t' => ['\\', 't']
  | '\x00' => ['\\', '0']
  | c =>
    if isControl c then ['\\', 'u', '\x7b'] ++ Nat.toDigits 16 c.toNat ++ ['\x7d'] else [c]

/-- The characters of a literal's body. -/
def escapeChars (chars : List Char) : List Char :=
  chars.flatMap escapeChar

/-- The body of the string literal that stands for the text. -/
def escapeString (text : String) : String :=
  String.ofList (escapeChars text.toList)

/-- The string literal that stands for the text. -/
def quoted (text : String) : String :=
  "\"" ++ escapeString text ++ "\""

/-! ### What escaping does to each part -/

@[simp] theorem escapeChars_nil : escapeChars [] = [] := rfl

@[simp] theorem escapeChars_cons (c : Char) (rest : List Char) :
    escapeChars (c :: rest) = escapeChar c ++ escapeChars rest := rfl

@[simp] theorem toList_escapeString (text : String) :
    (escapeString text).toList = escapeChars text.toList := by
  simp [escapeString]

end SwiftBindings.Swift
