/-
**Escaped text is lossless and safe.**

`bodyText?` reads a whole text as the body of a string literal. A backslash opens an escape unless an
escape is open already (`opensEscape`), so whether a character is escaped is told by the text in front of
it. A body is safe (`IsSafeBody`) when it has no control characters, every quote in it is escaped, and
every parenthesis behind a backslash stands behind an escaped backslash, so that it opens no
interpolation.

**The main statement.** `escapeString_lossless`: the escaped form of every text is a safe body that is read
as the text, so no two texts have one form. What it rests on is that each piece of the escaped form is
written for one character and leaves no escape open (`exists_piece`).
-/

import SwiftBindings.Proofs.Swift.Literals

namespace SwiftBindings.Swift

open SwiftBindings.Text

/-! ### Bodies of literals -/

/-- The text that a literal with the given body stands for, when the quote behind the body closes it. -/
def bodyText? (body : String) : Option String :=
  match literal? ('"' :: (body.toList ++ ['"'])) with
  | some (text, []) => some text
  | _ => none

/-- The text ends behind a backslash that opens an escape. -/
def opensEscape (before : List Char) : Bool :=
  before.foldl (fun opened c => c == '\\' && !opened) false

/-- Nothing in the body ends the literal, breaks its line or opens an interpolation. -/
structure IsSafeBody (body : List Char) : Prop where
  /-- No character is a control character. -/
  printable : ∀ c ∈ body, isControl c = false
  /-- Every quote is escaped. -/
  quotes : ∀ before after, body = before ++ '"' :: after → opensEscape before = true
  /-- Every backslash in front of a parenthesis is itself escaped. -/
  parentheses : ∀ before after, body = before ++ '\\' :: '(' :: after → opensEscape before = true

/-! ### Pieces of the escaped form -/

/-- What is written for a control character but the common ones: the code point in braces, whose digits
are neither backslashes nor quotes. -/
theorem digits_plain {c : Char} (control : isControl c = true) :
    '\\' ∉ Nat.toDigits 16 c.toNat ∧ '"' ∉ Nat.toDigits 16 c.toNat := by
  have codes : ∀ code < 160, '\\' ∉ Nat.toDigits 16 code ∧ '"' ∉ Nat.toDigits 16 code := by
    decide +kernel
  refine codes c.toNat ?_
  rw [isControl, Bool.or_eq_true, decide_eq_true_eq, Bool.and_eq_true, decide_eq_true_eq,
    decide_eq_true_eq] at control
  omega

/-- A character stands for itself, or is written as a backslash with characters behind it that are no
backslashes and no parenthesis at their start, or is the backslash. -/
theorem escapeChar_cases (c : Char) :
    (escapeChar c = [c] ∧ c ≠ '\\' ∧ c ≠ '"') ∨ escapeChar c = ['\\', '\\'] ∨
      escapeChar c = ['\\', '"'] ∨
      ∃ letter ending, escapeChar c = '\\' :: letter :: ending ∧ letter ≠ '(' ∧
        '\\' ∉ letter :: ending ∧ '"' ∉ letter :: ending := by
  rw [escapeChar.eq_def]
  split
  case h_1 => exact .inr (.inl rfl)
  case h_2 => exact .inr (.inr (.inl rfl))
  case h_7 backslash quote _ _ _ _ =>
    split
    · rename_i control
      obtain ⟨noBackslash, noQuote⟩ := digits_plain control
      refine .inr (.inr (.inr ⟨'u', '\x7b' :: (Nat.toDigits 16 c.toNat ++ ['\x7d']), ?_, ?_, ?_, ?_⟩))
      · simp
      · decide
      · simpa using noBackslash
      · simpa using noQuote
    · exact .inl ⟨rfl, backslash, quote⟩
  all_goals exact .inr (.inr (.inr ⟨_, [], rfl, by decide, by decide, by decide⟩))

/-- Text without backslashes behind an open escape leaves none open. -/
theorem foldl_closed {chars : List Char} (clean : '\\' ∉ chars) :
    chars.foldl (fun opened c => c == '\\' && !opened) false = false := by
  induction chars with
  | nil => rfl
  | cons c chars ih =>
    obtain ⟨other, clean⟩ := not_or.mp (List.mem_cons.not.mp clean)
    rw [List.foldl_cons, beq_false_of_ne (Ne.symm other), Bool.false_and]
    exact ih clean

/-- What is written for a character leaves no escape open. -/
theorem opensEscape_escapeChar (c : Char) : opensEscape (escapeChar c) = false := by
  rcases escapeChar_cases c with ⟨written, other, _⟩ | written | written | ⟨letter, ending, written, _, clean, _⟩
  · rw [written, opensEscape, List.foldl_cons, beq_false_of_ne other]
    rfl
  · rw [written]
    rfl
  · rw [written]
    rfl
  · obtain ⟨other, clean⟩ := not_or.mp (List.mem_cons.not.mp clean)
    rw [written, opensEscape, List.foldl_cons, List.foldl_cons, beq_false_of_ne (Ne.symm other),
      Bool.false_and]
    exact foldl_closed clean

/-- What is in front of a place in the escaped form counts from the last character that is written in
full. -/
theorem opensEscape_append (chars front : List Char) :
    opensEscape (escapeChars chars ++ front) = opensEscape front := by
  have closed : opensEscape (escapeChars chars) = false := by
    induction chars with
    | nil => rfl
    | cons c chars ih =>
      have first := opensEscape_escapeChar c
      rw [opensEscape] at first
      rw [escapeChars_cons, opensEscape, List.foldl_append, first]
      exact ih
  rw [opensEscape] at closed
  rw [opensEscape, List.foldl_append, closed, opensEscape]

/-- **Every place in the escaped form lies in what is written for one character**, with the characters
before it written in full. -/
theorem exists_piece {chars before after : List Char} {d : Char}
    (split : escapeChars chars = before ++ d :: after) :
    ∃ read c rest front back, before = escapeChars read ++ front ∧ escapeChar c = front ++ d :: back ∧
      after = back ++ escapeChars rest := by
  induction chars generalizing before with
  | nil => exact absurd split (by simp)
  | cons c chars ih =>
    rw [escapeChars_cons] at split
    rcases List.append_eq_append_iff.mp split with ⟨front, same, later⟩ | ⟨piece, same, later⟩
    · obtain ⟨read, c', rest, front', back, rfl, written, rfl⟩ := ih later
      refine ⟨c :: read, c', rest, front', back, ?_, written, rfl⟩
      rw [same, escapeChars_cons, List.append_assoc]
    · cases piece with
      | nil =>
        have split' : escapeChars chars = [] ++ d :: after := later.symm
        obtain ⟨read, c', rest, front', back, none, written, rfl⟩ := ih split'
        refine ⟨c :: read, c', rest, front', back, ?_, written, rfl⟩
        rw [escapeChars_cons, List.append_assoc, ← none, List.append_nil, same, List.append_nil]
      | cons first back =>
        obtain ⟨rfl, rfl⟩ := List.cons.inj later
        exact ⟨[], c, chars, before, back, rfl, same, rfl⟩

/-! ### Safety -/

/-- A place in a list of two is at its first or its last item. -/
theorem pair_split {a b d : Char} {front back : List Char} (split : [a, b] = front ++ d :: back) :
    (front = [] ∧ a = d ∧ back = [b]) ∨ (front = [a] ∧ b = d) := by
  cases front with
  | nil =>
    obtain ⟨first, rest⟩ := List.cons.inj split
    exact .inl ⟨rfl, first, rest.symm⟩
  | cons first front =>
    have rest : [b] = front ++ d :: back := (List.cons.inj split).2
    cases front with
    | nil => exact .inr ⟨congrArg (fun c => [c]) (List.cons.inj split).1.symm, (List.cons.inj rest).1⟩
    | cons second front =>
      have lengths := congrArg List.length rest
      simp only [List.cons_append, List.length_cons, List.length_append, List.length_nil] at lengths
      omega

/-- A quote in what is written for a character stands behind the backslash. -/
theorem opensEscape_of_quote {c : Char} {front back : List Char}
    (written : escapeChar c = front ++ '"' :: back) : opensEscape front = true := by
  have member : '"' ∈ escapeChar c := written ▸ List.mem_append_right front (List.mem_cons_self ..)
  rcases escapeChar_cases c with ⟨same, _, other⟩ | same | same | ⟨letter, ending, same, _, _, clean⟩
  · rw [same, List.mem_singleton] at member
    exact absurd member.symm other
  · rw [same] at member
    exact absurd member (by decide)
  · rcases pair_split (same.symm.trans written) with ⟨_, wrong, _⟩ | ⟨rfl, _⟩
    · exact absurd wrong (by decide)
    · rfl
  · rw [same] at member
    rcases List.mem_cons.mp member with wrong | inner
    · exact absurd wrong (by decide)
    · exact absurd inner clean

/-- A backslash in what is written for a character is escaped, or opens an escape that is no
interpolation. -/
theorem opensEscape_of_backslash {c : Char} {front back : List Char}
    (written : escapeChar c = front ++ '\\' :: back) :
    opensEscape front = true ∨ ∃ letter ending, back = letter :: ending ∧ letter ≠ '(' := by
  rcases escapeChar_cases c with ⟨same, other, _⟩ | same | same | ⟨letter, ending, same, plain, clean, _⟩
  · have member : '\\' ∈ escapeChar c := written ▸ List.mem_append_right front (List.mem_cons_self ..)
    rw [same, List.mem_singleton] at member
    exact absurd member.symm other
  · rcases pair_split (same.symm.trans written) with ⟨_, _, rfl⟩ | ⟨rfl, _⟩
    · exact .inr ⟨_, _, rfl, by decide⟩
    · exact .inl rfl
  · rcases pair_split (same.symm.trans written) with ⟨_, _, rfl⟩ | ⟨_, wrong⟩
    · exact .inr ⟨_, _, rfl, by decide⟩
    · exact absurd wrong (by decide)
  · rw [same] at written
    cases front with
    | nil =>
      obtain ⟨_, rfl⟩ := List.cons.inj written
      exact .inr ⟨letter, ending, rfl, plain⟩
    | cons first front =>
      obtain ⟨_, inner⟩ := List.cons.inj written
      exact absurd (inner ▸ List.mem_append_right front (List.mem_cons_self ..)) clean

/-- The escaped form of every text is a safe body. -/
theorem isSafeBody_escapeChars (chars : List Char) : IsSafeBody (escapeChars chars) where
  printable c member := by
    have inner := any_isControl_quoted (String.ofList chars)
    rw [toList_quoted, List.any_cons, List.any_append, Bool.or_eq_false_iff, Bool.or_eq_false_iff,
      String.toList_ofList] at inner
    exact Bool.eq_false_iff.mpr (List.any_eq_false.mp inner.2.1 c member)
  quotes before after split := by
    obtain ⟨read, c, _, front, back, rfl, written, _⟩ := exists_piece split
    rw [opensEscape_append]
    exact opensEscape_of_quote written
  parentheses before after split := by
    obtain ⟨read, c, _, front, back, rfl, written, behind⟩ := exists_piece split
    rw [opensEscape_append]
    rcases opensEscape_of_backslash written with opened | ⟨letter, ending, rfl, plain⟩
    · exact opened
    · exact absurd (List.cons.inj behind).1.symm plain

/-! ### Reading back -/

theorem bodyText?_escapeString (text : String) : bodyText? (escapeString text) = some text := by
  have read := literal?_quoted text []
  rw [toList_quoted, List.append_nil] at read
  rw [bodyText?, toList_escapeString, read]

/-- **Escaping is lossless and safe.** The escaped form of every text is read as the text; it has no
control character, no quote that ends the literal and no interpolation; and no two texts have one form. -/
theorem escapeString_lossless :
    (∀ text, bodyText? (escapeString text) = some text) ∧
      (∀ text, IsSafeBody (escapeString text).toList) ∧ Function.Injective escapeString := by
  refine ⟨bodyText?_escapeString, fun text => ?_, fun first second same => ?_⟩
  · rw [toList_escapeString]
    exact isSafeBody_escapeChars text.toList
  · have read := bodyText?_escapeString first
    rw [same, bodyText?_escapeString] at read
    exact (Option.some.inj read).symm

example : bodyText? (escapeString "\\(a)\"\x00\x001\x7f\x7d") = some "\\(a)\"\x00\x001\x7f\x7d" := by
  decide

end SwiftBindings.Swift
