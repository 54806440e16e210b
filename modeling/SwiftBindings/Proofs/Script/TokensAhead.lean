/-
**The tokens that written texts start with.**

`Ahead text kind tail` says that a text starts with a token of the kind and goes on with the tail, at
whatever offset the text stands. It is found for all that types are written with: punctuation
(`ahead_punctuation`), the operators of types, identifiers and keywords in front of what ends a word
(`ahead_word`), and string literals.

A literal is written with nothing but backslashes and quotes escaped. It is read as its value, unless a
line break stands in it: then the text starts with no token at all (`ahead_literal`).
-/

import SwiftBindings.Script.Parser
import SwiftBindings.TypeGraph.Construction

namespace SwiftBindings.Script

open Declared Text TypeGraph

/-- The text starts with a token of the kind, with no line break before it, and goes on with the
tail. -/
def Ahead (text : List Char) (kind : TokenKind) (tail : List Char) : Prop :=
  ∀ offset, (nextToken text offset).kind = kind ∧ (nextToken text offset).lineBreak = false ∧
    (nextToken text offset).rest = tail

/-- A token that starts where the text does. -/
theorem Ahead.of_reading {text tail : List Char} {kind : TokenKind}
    (start : ∀ offset, skipGap .open text offset false = (text, offset, false))
    (reading : ∃ read, readToken text = (kind, read, tail)) : Ahead text kind tail := by
  intro offset
  obtain ⟨read, reading⟩ := reading
  rw [nextToken, start offset]
  dsimp only
  rw [reading]
  exact ⟨rfl, rfl, rfl⟩

/-- Blanks in front are skipped. -/
theorem Ahead.blank {text tail : List Char} {kind : TokenKind} (ahead : Ahead text kind tail) :
    Ahead (' ' :: text) kind tail :=
  fun offset => ahead (offset + 1)

/-! ### Marks -/

/-- The marks that are tokens whatever stands behind them. -/
def punctuation : List Char := ['(', ')', '[', ']', '\x7b', '\x7d', ',', ';', ':']

theorem ahead_punctuation {c : Char} (member : c ∈ punctuation) (rest : List Char) :
    Ahead (c :: rest) (.mark (String.singleton c)) rest := by
  simp only [punctuation, List.mem_cons, List.not_mem_nil, or_false] at member
  rcases member with rfl | rfl | rfl | rfl | rfl | rfl | rfl | rfl | rfl <;>
    exact fun offset => ⟨rfl, rfl, rfl⟩

theorem ahead_union (rest : List Char) : Ahead ('|' :: ' ' :: rest) (.mark "|") (' ' :: rest) :=
  fun _ => ⟨rfl, rfl, rfl⟩

theorem ahead_intersection (rest : List Char) :
    Ahead ('&' :: ' ' :: rest) (.mark "&") (' ' :: rest) :=
  fun _ => ⟨rfl, rfl, rfl⟩

theorem ahead_optional (rest : List Char) : Ahead ('?' :: ':' :: rest) (.mark "?") (':' :: rest) :=
  fun _ => ⟨rfl, rfl, rfl⟩

theorem ahead_finish : Ahead [] .finish [] :=
  fun _ => ⟨rfl, rfl, rfl⟩

/-! ### Words -/

/-- The text is an identifier: its characters may continue one, and the first may open one. -/
def isIdentifierName (name : String) : Bool :=
  name.toList.head?.any isIdentifierStart && name.toList.all isIdentifierPart

/-- A word that stands in front of the text ends there. -/
def EndsWord (text : List Char) : Prop :=
  ∀ c ∈ text.head?, isIdentifierPart c = false ∧ c ≠ '\\'

theorem isIdentifierPart_ne {c other : Char} (part : isIdentifierPart c = true)
    (apart : isIdentifierPart other = false) : c ≠ other := by
  rintro rfl
  exact Bool.false_ne_true (apart.symm.trans part)

theorem isIdentifierStart_ne {c other : Char} (opens : isIdentifierStart c = true)
    (apart : isIdentifierStart other = false) : c ≠ other := by
  rintro rfl
  exact Bool.false_ne_true (apart.symm.trans opens)

/-- The characters that are skipped between tokens, and the digits. -/
def gapAndDigitCodes : List Nat :=
  [9, 10, 11, 12, 13, 0x20, 48, 49, 50, 51, 52, 53, 54, 55, 56, 57, 0xA0, 0xFEFF, 0x1680, 0x2000, 0x2001,
    0x2002, 0x2003, 0x2004, 0x2005, 0x2006, 0x2007, 0x2008, 0x2009, 0x200A, 0x2028, 0x2029, 0x202F,
    0x205F, 0x3000]

theorem toNat_mem_gapAndDigitCodes {c : Char}
    (outside : isLineEnd c = true ∨ isSpace c = true ∨ c.isDigit = true) :
    c.toNat ∈ gapAndDigitCodes := by
  rcases outside with ends | space | digit
  · simp only [isLineEnd, Bool.or_eq_true, beq_iff_eq] at ends
    rcases ends with ((rfl | rfl) | rfl) | rfl <;> decide
  · simp only [isSpace, Bool.or_eq_true, Bool.and_eq_true, beq_iff_eq, decide_eq_true_eq] at space
    simp only [gapAndDigitCodes, List.mem_cons, List.not_mem_nil, or_false]
    omega
  · simp only [Char.isDigit, Bool.and_eq_true, decide_eq_true_eq, ge_iff_le, UInt32.le_iff_toNat_le] at digit
    have bounds : 48 ≤ c.toNat ∧ c.toNat ≤ 57 := digit
    simp only [gapAndDigitCodes, List.mem_cons, List.not_mem_nil, or_false]
    omega

/-- An identifier opens neither with what is skipped nor with a digit. -/
theorem isIdentifierStart_outside {c : Char} (opens : isIdentifierStart c = true) :
    isLineEnd c = false ∧ isSpace c = false ∧ c.isDigit = false := by
  have none : ∀ code ∈ gapAndDigitCodes, isIdentifierStart (Char.ofNat code) = false := by
    decide +kernel
  have outside : ¬(isLineEnd c = true ∨ isSpace c = true ∨ c.isDigit = true) := by
    intro inside
    have absent := none c.toNat (toNat_mem_gapAndDigitCodes inside)
    rw [Char.ofNat_toNat] at absent
    exact Bool.false_ne_true (absent.symm.trans opens)
  simpa only [not_or, Bool.not_eq_true] using outside

theorem skipGap_identifier {c : Char} (opens : isIdentifierStart c = true) (rest : List Char)
    (offset : Nat) : skipGap .open (c :: rest) offset false = (c :: rest, offset, false) := by
  have slash : c ≠ '/' := isIdentifierStart_ne opens (by decide)
  have angle : c ≠ '<' := isIdentifierStart_ne opens (by decide)
  obtain ⟨noEnd, noSpace, _⟩ := isIdentifierStart_outside opens
  simp [skipGap, slash, angle, noEnd, noSpace]

/-- A name is read up to what ends it. -/
theorem readName_append {name rest : List Char} (parts : name.all isIdentifierPart = true)
    (ends : EndsWord rest) : readName (name ++ rest) = (name, name, rest) := by
  induction name with
  | nil =>
    cases rest with
    | nil => rfl
    | cons c rest =>
      obtain ⟨outside, escape⟩ := ends c rfl
      simp [readName, outside, escape]
  | cons c name ih =>
    rw [List.all_cons, Bool.and_eq_true] at parts
    have escape : c ≠ '\\' := isIdentifierPart_ne parts.1 (by decide)
    simp [readName, escape, parts.1, ih parts.2]

theorem readToken_identifier {c : Char} {name rest : List Char} (opens : isIdentifierStart c = true)
    (parts : (c :: name).all isIdentifierPart = true) (ends : EndsWord rest) :
    readToken (c :: (name ++ rest)) = (.word (String.ofList (c :: name)), c :: name, rest) := by
  have double : c ≠ '"' := isIdentifierStart_ne opens (by decide)
  have single : c ≠ '\'' := isIdentifierStart_ne opens (by decide)
  have back : c ≠ '\x60' := isIdentifierStart_ne opens (by decide)
  have hash : c ≠ '#' := isIdentifierStart_ne opens (by decide)
  have point : c ≠ '.' := isIdentifierStart_ne opens (by decide)
  obtain ⟨_, _, digit⟩ := isIdentifierStart_outside opens
  have read := readName_append parts ends
  rw [List.cons_append] at read
  unfold readToken
  split <;> simp_all

/-- An identifier is a word. -/
theorem ahead_word {name : String} (identifier : isIdentifierName name = true) {rest : List Char}
    (ends : EndsWord rest) : Ahead (name.toList ++ rest) (.word name) rest := by
  rw [isIdentifierName, Bool.and_eq_true] at identifier
  obtain ⟨opens, parts⟩ := identifier
  cases chars : name.toList with
  | nil =>
    rw [chars] at opens
    cases opens
  | cons c others =>
    rw [chars] at opens parts
    have spelled : String.ofList (c :: others) = name := by rw [← chars, String.ofList_toList]
    rw [← spelled, List.cons_append]
    exact .of_reading (skipGap_identifier opens _) ⟨_, readToken_identifier opens parts ends⟩

theorem isIdentifierName_keyword (keyword : Keyword) : isIdentifierName keyword.text = true := by
  cases keyword <;> decide

/-! ### String literals -/

/-- The literal can be read: no line break stands in its value. -/
def isReadable (value : List Char) : Bool := value.all fun c => c != '\n' && c != '\r'

/-- A body ends at the first quote that is not escaped, and not in front of a line break. -/
theorem literalBody?_quoted (value rest : List Char) :
    literalBody? '"' (value.flatMap quoteChar ++ '"' :: rest) =
      if isReadable value then some (value.flatMap quoteChar, rest) else none := by
  induction value with
  | nil => rfl
  | cons c value ih =>
    rw [List.flatMap_cons, List.append_assoc, isReadable, List.all_cons, ← isReadable]
    by_cases escaped : c = '\\' ∨ c = '"'
    · rw [quoteChar, if_pos escaped]
      rcases escaped with rfl | rfl
      · simp [literalBody?, ih]
      · simp [literalBody?, ih]
    · rw [quoteChar, if_neg escaped]
      obtain ⟨backslash, quote⟩ := not_or.mp escaped
      rw [List.singleton_append, literalBody?, if_neg quote, ih]
      · by_cases ends : c = '\n' ∨ c = '\r'
        · rcases ends with rfl | rfl <;> simp
        · simp only [not_or] at ends
          cases isReadable value <;> simp [ends]
      · exact fun _ same => absurd same backslash
      · exact fun _ _ same => absurd same backslash

theorem decodeBody_quoted (value : List Char) {steps : Nat} (enough : value.length ≤ steps) :
    decodeBody steps (value.flatMap quoteChar) = some (value.map Char.toNat) := by
  induction value generalizing steps with
  | nil => cases steps <;> rfl
  | cons c value ih =>
    obtain ⟨steps, rfl⟩ : ∃ fewer, steps = fewer + 1 := ⟨steps - 1, by
      rw [List.length_cons] at enough
      omega⟩
    have others := ih (Nat.le_of_succ_le_succ enough)
    rw [List.flatMap_cons]
    by_cases escaped : c = '\\' ∨ c = '"'
    · rw [quoteChar, if_pos escaped]
      rcases escaped with rfl | rfl <;> simp [decodeBody, others, isLineEnd, isOctalDigit, simpleEscape]
    · rw [quoteChar, if_neg escaped]
      have backslash := (not_or.mp escaped).1
      simp [decodeBody, backslash, others]

/-- A character is no half of a surrogate pair. -/
theorem not_half (c : Char) : isLeadingHalf c.toNat = false ∧ isTrailingHalf c.toNat = false := by
  have valid : c.toNat < 0xD800 ∨ 0xDFFF < c.toNat ∧ c.toNat < 0x110000 := c.valid
  simp only [isLeadingHalf, isTrailingHalf, Bool.and_eq_false_iff, decide_eq_false_iff_not]
  omega

theorem joinHalves_toNat (value : List Char) : joinHalves (value.map Char.toNat) = value := by
  induction value with
  | nil => rfl
  | cons c value ih =>
    obtain ⟨leading, trailing⟩ := not_half c
    cases value with
    | nil => simp [joinHalves, leading, trailing]
    | cons next value =>
      rw [List.map_cons] at ih
      simp [joinHalves, leading, trailing, ih]

theorem literalValue?_quoted (value : List Char) :
    literalValue? (value.flatMap quoteChar) = some (String.ofList value) := by
  have enough : value.length ≤ (value.flatMap quoteChar).length := by
    induction value with
    | nil => exact Nat.le_refl 0
    | cons c value ih =>
      have own : 1 ≤ (quoteChar c).length := by
        rw [quoteChar]
        split <;> simp
      rw [List.flatMap_cons, List.length_append, List.length_cons]
      omega
  rw [literalValue?, decodeBody_quoted value enough, Option.map_some, joinHalves_toNat]

theorem literalText_toList (value : String) :
    (literalText value).toList = '"' :: (value.toList.flatMap quoteChar ++ ['"']) := by
  simp [literalText]

theorem readString_quoted (value : String) (rest : List Char) :
    readString '"' (value.toList.flatMap quoteChar ++ '"' :: rest) =
      if isReadable value.toList then
        (.string value, '"' :: value.toList.flatMap quoteChar ++ ['"'], rest)
      else (.invalid, ['"'], value.toList.flatMap quoteChar ++ '"' :: rest) := by
  rw [readString, literalBody?_quoted]
  cases isReadable value.toList with
  | false => rfl
  | true =>
    rw [if_pos rfl]
    dsimp only
    rw [literalValue?_quoted, String.ofList_toList, if_pos rfl]

/-- A literal is read as its value, unless the value has a line break. Then it is no token. -/
theorem ahead_literal (value : String) (rest : List Char) :
    Ahead ((literalText value).toList ++ rest)
      (if isReadable value.toList then .string value else .invalid)
      (if isReadable value.toList then rest else value.toList.flatMap quoteChar ++ '"' :: rest) := by
  rw [literalText_toList, List.cons_append, List.append_assoc]
  have reading := readString_quoted value rest
  cases readable : isReadable value.toList with
  | false =>
    rw [readable] at reading
    exact .of_reading (fun offset => rfl) ⟨_, reading⟩
  | true =>
    rw [readable] at reading
    exact .of_reading (fun offset => rfl) ⟨_, reading⟩

end SwiftBindings.Script
