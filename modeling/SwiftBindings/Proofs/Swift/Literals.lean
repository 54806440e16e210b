/-
**Reading string literals.**

`readLiteral` reads the characters of a string literal up to its closing quote: an escape stands for one
character, by a letter or by a code point in hexadecimal, and every other character but a line break for
itself. An interpolation is no escape, so a literal that is read has none.

**The main statement.** `readLiteral_escapeChars`: whatever the characters, the literal that is written
for them is read as them, and nothing behind its quote is touched.
-/

import Mathlib.Logic.Basic
import SwiftBindings.Swift.StringLiteral

namespace SwiftBindings.Swift

open SwiftBindings.Text

/-! ### The reader -/

/-- Where a reader stands in a literal. -/
inductive LiteralState where
  /-- Between two characters. -/
  | text
  /-- Behind a backslash. -/
  | escape
  /-- Behind the letter of a code point. -/
  | brace
  /-- Behind the opening brace of a code point. -/
  | first
  /-- Behind digits of a code point, with what they amount to. -/
  | point (code : Nat)
  deriving DecidableEq, Repr

/-- The character that a letter behind a backslash stands for. -/
def letterEscape? : Char → Option Char
  | '\\' => some '\\'
  | '"' => some '"'
  | 'n' => some '\n'
  | 'r' => some '\r'
  | 't' => some '\t'
  | '0' => some '\x00'
  | _ => none

/-- The value of a digit to the base sixteen, of either case. -/
def hexDigit? (c : Char) : Option Nat :=
  if c.isDigit then some (c.toNat - '0'.toNat)
  else if 'a' ≤ c.toLower ∧ c.toLower ≤ 'f' then some (c.toLower.toNat - 'a'.toNat + 10)
  else none

/-- What is read, with a character in front. -/
def withChar (c : Char) (read : Option (List Char × List Char)) : Option (List Char × List Char) :=
  read.map fun (chars, rest) => (c :: chars, rest)

/-- The characters of a literal, and what follows its closing quote. -/
def readLiteral : LiteralState → List Char → Option (List Char × List Char)
  | _, [] => none
  | .text, c :: rest =>
    if c = '"' then some ([], rest)
    else if c = '\\' then readLiteral .escape rest
    else if c = '\n' ∨ c = '\r' then none
    else withChar c (readLiteral .text rest)
  | .escape, c :: rest =>
    if c = 'u' then readLiteral .brace rest
    else (letterEscape? c).bind fun letter => withChar letter (readLiteral .text rest)
  | .brace, c :: rest => if c = '\x7b' then readLiteral .first rest else none
  | .first, c :: rest => (hexDigit? c).bind fun digit => readLiteral (.point digit) rest
  | .point code, c :: rest =>
    if c = '\x7d' then
      if code.isValidChar then withChar (Char.ofNat code) (readLiteral .text rest) else none
    else (hexDigit? c).bind fun digit => readLiteral (.point (16 * code + digit)) rest

/-- The text of the literal in front, and what follows it. -/
def literal? : List Char → Option (String × List Char)
  | '"' :: rest => (readLiteral .text rest).map fun (chars, behind) => (String.ofList chars, behind)
  | _ => none

/-! ### What is left behind a literal -/

theorem withChar_eq_some {c : Char} {read : Option (List Char × List Char)}
    {chars behind : List Char} (same : withChar c read = some (chars, behind)) :
    ∃ rest, read = some (rest, behind) := by
  rw [withChar, Option.map_eq_some_iff] at same
  obtain ⟨⟨rest, left⟩, found, both⟩ := same
  cases both
  exact ⟨rest, found⟩

/-- What is left behind a literal is shorter than what was read. -/
theorem length_of_readLiteral {chars behind : List Char} : ∀ {state : LiteralState} {text : List Char},
    readLiteral state text = some (chars, behind) → behind.length < text.length := by
  intro state text read
  induction text generalizing state chars with
  | nil => cases state <;> cases read
  | cons c rest ih =>
    have later : ∀ {state chars}, readLiteral state rest = some (chars, behind) →
        behind.length < (c :: rest).length := fun read => Nat.lt_succ_of_lt (ih read)
    have pushed : ∀ {letter chars}, withChar letter (readLiteral .text rest) = some (chars, behind) →
        behind.length < (c :: rest).length := by
      intro letter chars read
      obtain ⟨_, read⟩ := withChar_eq_some read
      exact later read
    cases state <;> rw [readLiteral] at read
    case text =>
      split at read
      · cases read
        exact Nat.lt_succ_self _
      · split at read
        · exact later read
        · split at read
          · cases read
          · exact pushed read
    case escape =>
      split at read
      · exact later read
      · obtain ⟨letter, _, read⟩ := Option.bind_eq_some_iff.mp read
        exact pushed read
    case brace =>
      split at read
      · exact later read
      · cases read
    case first =>
      obtain ⟨digit, _, read⟩ := Option.bind_eq_some_iff.mp read
      exact later read
    case point code =>
      split at read
      · split at read
        · exact pushed read
        · cases read
      · obtain ⟨digit, _, read⟩ := Option.bind_eq_some_iff.mp read
        exact later read

/-! ### Reading what is written -/

/-- The code point that digits to the base sixteen add to. -/
def hexValue? (code : Nat) : List Char → Option Nat
  | [] => some code
  | c :: rest => (hexDigit? c).bind fun digit => hexValue? (16 * code + digit) rest

/-- The digits of a code point are read up to the closing brace. -/
theorem readLiteral_point {code value : Nat} {digits : List Char} (rest : List Char)
    (clean : '\x7d' ∉ digits) (read : hexValue? code digits = some value) :
    readLiteral (.point code) (digits ++ '\x7d' :: rest) =
      if value.isValidChar then withChar (Char.ofNat value) (readLiteral .text rest) else none := by
  induction digits generalizing code with
  | nil =>
    cases read
    rw [List.nil_append, readLiteral, if_pos rfl]
  | cons c digits ih =>
    obtain ⟨other, clean⟩ := not_or.mp (List.mem_cons.not.mp clean)
    obtain ⟨digit, found, read⟩ := Option.bind_eq_some_iff.mp read
    rw [List.cons_append, readLiteral, if_neg (Ne.symm other), found, Option.bind_some]
    exact ih clean read

/-- The digits of a control character amount to it, and are no control characters themselves. -/
theorem digits_of_control {c : Char} (control : isControl c = true) :
    Nat.toDigits 16 c.toNat ≠ [] ∧ '\x7d' ∉ Nat.toDigits 16 c.toNat ∧
      (Nat.toDigits 16 c.toNat).any isControl = false ∧
      hexValue? 0 (Nat.toDigits 16 c.toNat) = some c.toNat := by
  have codes : ∀ code < 160, Nat.toDigits 16 code ≠ [] ∧ '\x7d' ∉ Nat.toDigits 16 code ∧
      (Nat.toDigits 16 code).any isControl = false ∧
      hexValue? 0 (Nat.toDigits 16 code) = some code := by
    decide +kernel
  refine codes c.toNat ?_
  rw [isControl, Bool.or_eq_true, decide_eq_true_eq, Bool.and_eq_true, decide_eq_true_eq,
    decide_eq_true_eq] at control
  omega

/-- Digits behind the opening brace are those behind a zero. -/
theorem readLiteral_first {digits : List Char} (rest : List Char) (present : digits ≠ [])
    (clean : '\x7d' ∉ digits) :
    readLiteral .first (digits ++ rest) = readLiteral (.point 0) (digits ++ rest) := by
  cases digits with
  | nil => exact absurd rfl present
  | cons c digits =>
    obtain ⟨other, _⟩ := not_or.mp (List.mem_cons.not.mp clean)
    rw [List.cons_append, readLiteral, readLiteral, if_neg (Ne.symm other)]
    simp only [Nat.mul_zero, Nat.zero_add]

/-- **What is written for a character is read as it**, whatever follows. -/
theorem readLiteral_escapeChar (c : Char) (rest : List Char) :
    readLiteral .text (escapeChar c ++ rest) = withChar c (readLiteral .text rest) := by
  rw [escapeChar.eq_def]
  split
  case h_7 backslash quote newline carriage tab zero =>
    split
    · rename_i control
      obtain ⟨present, closed, _, value⟩ := digits_of_control control
      have head : ['\\', 'u', '\x7b'] ++ Nat.toDigits 16 c.toNat ++ ['\x7d'] ++ rest =
          '\\' :: 'u' :: '\x7b' :: (Nat.toDigits 16 c.toNat ++ '\x7d' :: rest) := by simp
      rw [head]
      show readLiteral .first _ = _
      have valid : c.toNat.isValidChar := c.valid
      rw [readLiteral_first _ present closed, readLiteral_point rest closed value, if_pos valid,
        Char.ofNat_toNat]
    · rw [List.singleton_append, readLiteral, if_neg quote, if_neg backslash,
        if_neg (not_or.mpr ⟨newline, carriage⟩)]
  all_goals rfl

/-- **A literal that is written for characters is read as them.** -/
theorem readLiteral_escapeChars (chars rest : List Char) :
    readLiteral .text (escapeChars chars ++ '"' :: rest) = some (chars, rest) := by
  induction chars with
  | nil => rfl
  | cons c chars ih =>
    rw [escapeChars_cons, List.append_assoc, readLiteral_escapeChar, ih, withChar, Option.map_some]

theorem toList_quoted (text : String) :
    (quoted text).toList = '"' :: (escapeChars text.toList ++ ['"']) := by
  rw [quoted, String.toList_append, String.toList_append, toList_escapeString]
  rfl

/-- The literal of a text is read as the text. -/
theorem literal?_quoted (text : String) (rest : List Char) :
    literal? ((quoted text).toList ++ rest) = some (text, rest) := by
  rw [toList_quoted, List.cons_append, List.append_assoc, List.singleton_append, literal?,
    readLiteral_escapeChars, Option.map_some]
  exact congrArg (fun read => some (read, rest)) String.ofList_toList

example : literal? ("\"\\u\x7b1b\x7d[0m\" rest".toList) = some ("\x1b[0m", " rest".toList) := by decide

/-- A literal has no control characters, so it stands on one line. -/
theorem any_isControl_quoted (text : String) : (quoted text).toList.any isControl = false := by
  have char : ∀ c, (escapeChar c).any isControl = false := by
    intro c
    rw [escapeChar.eq_def]
    split
    case h_7 =>
      split
      · rename_i control
        obtain ⟨_, _, digits, _⟩ := digits_of_control control
        rw [List.any_append, List.any_append, digits]
        decide
      · rename_i plain
        rw [List.any_cons, List.any_nil, Bool.or_false]
        exact Bool.eq_false_iff.mpr plain
    all_goals decide
  have body : (escapeChars text.toList).any isControl = false := by
    rw [escapeChars, List.any_flatMap]
    exact List.any_eq_false.mpr fun c _ => Bool.eq_false_iff.mp (char c)
  rw [toList_quoted, List.any_cons, List.any_append, body]
  decide

end SwiftBindings.Swift
