/-
**Texts that name identifier types.**

`identifierArgument?` cuts a text at its first angle bracket and drops the last one: it answers the
argument where the text is a name of an identifier type, an argument in brackets, and nothing behind
(`identifierArgument?_eq_some_iff`). So texts that end in another character, or start with one that no
such name has, never name identifiers.

The text of a string literal is its value in quotes with a backslash in front of each quote and
backslash. Taking the quotes off again gives the value back exactly where it has neither
(`unquoted?_literalText_eq_iff`).
-/

import Mathlib.Data.List.Basic
import Mathlib.Data.List.TakeWhile
import SwiftBindings.Reduction.Identifier
import SwiftBindings.TypeGraph.Construction

namespace SwiftBindings.Text

/-! ### Cutting -/

/-- A text is cut where the mark first occurs. -/
theorem cutAt?_eq_some_iff {mark : Char} {chars front rest : List Char} :
    cutAt? mark chars = some (front, rest) ↔ chars = front ++ mark :: rest ∧ mark ∉ front := by
  have apart : mark ∉ chars.takeWhile (· != mark) := fun inside => by
    simpa using List.mem_takeWhile_imp inside
  have whole := List.takeWhile_append_dropWhile (p := (· != mark)) (l := chars)
  rw [cutAt?]
  constructor
  · intro cut
    cases dropped : chars.dropWhile (· != mark) with
    | nil => simp [dropped] at cut
    | cons head tail =>
      simp only [dropped, Option.some.injEq, Prod.mk.injEq] at cut
      obtain ⟨rfl, rfl⟩ := cut
      have met := List.head?_dropWhile_not (· != mark) chars
      rw [dropped] at met whole
      have same : head = mark := by simpa using met
      subst same
      exact ⟨whole.symm, apart⟩
  · rintro ⟨rfl, free⟩
    have pass : ∀ c ∈ front, (c != mark) = true := by
      intro c inside
      rw [bne_iff_ne]
      rintro rfl
      exact free inside
    rw [List.dropWhile_append_of_pos pass, List.takeWhile_append_of_pos pass]
    simp

theorem beforeLast?_eq_some_iff {last : Char} {chars front : List Char} :
    beforeLast? last chars = some front ↔ chars = front ++ [last] := by
  rw [beforeLast?]
  constructor
  · intro found
    split at found
    · rename_i ending
      cases found
      exact (List.dropLast_append_getLast? last ending).symm
    · cases found
  · rintro rfl
    rw [if_pos List.getLast?_concat, List.dropLast_concat]

/-- Nothing is trimmed off a text between two characters that stay. -/
theorem trimWhile_between {test : Char → Bool} {first last : Char} (keeps : test first = false)
    (keeps' : test last = false) (inner : List Char) :
    trimWhile test (first :: inner ++ [last]) = first :: inner ++ [last] := by
  rw [trimWhile, dropEndWhile, List.cons_append, List.dropWhile_cons, if_neg (by simp [keeps])]
  rw [← List.cons_append, List.reverse_append, List.reverse_singleton, List.singleton_append,
    List.dropWhile_cons, if_neg (by simp [keeps'])]
  simp

end SwiftBindings.Text

namespace SwiftBindings.Reduction

open Text TypeGraph

/-! ### Names -/

theorem mem_intercalate_singleton {α : Type} {mark c : α} {parts : List (List α)}
    (inside : c ∈ [mark].intercalate parts) : c = mark ∨ ∃ part ∈ parts, c ∈ part := by
  induction parts with
  | nil => cases inside
  | cons part rest ih =>
    cases rest with
    | nil => exact .inr ⟨part, by simp, by simpa using inside⟩
    | cons next rest =>
      rw [List.intercalate_cons_cons, List.append_assoc, List.mem_append] at inside
      rcases inside with inside | inside
      · exact .inr ⟨part, List.mem_cons_self, inside⟩
      · rw [List.singleton_append, List.mem_cons] at inside
        rcases inside with rfl | inside
        · exact .inl rfl
        · obtain same | ⟨other, member, held⟩ := ih inside
          · exact .inl same
          · exact .inr ⟨other, List.mem_cons_of_mem _ member, held⟩

/-- A character of the name of an identifier type. -/
def isNameChar (c : Char) : Bool :=
  c == '.' || isAlphanumeric c || c == '_' || c == '$'

/-- The name of an identifier type has only characters of names. -/
theorem isNameChar_of_mem {name : List Char} (names : namesIdentifier name = true) {c : Char}
    (inside : c ∈ name) : isNameChar c = true := by
  simp only [namesIdentifier, Bool.and_eq_true, List.all_eq_true] at names
  obtain ⟨qualified, named⟩ := names
  have whole : ['.'].intercalate (name.splitOnP (· == '.')) = name := List.intercalate_splitOn '.'
  rw [← whole] at inside
  obtain rfl | ⟨segment, member, held⟩ := mem_intercalate_singleton inside
  · rfl
  · have present := List.ne_nil_of_mem member
    rw [← List.dropLast_concat_getLast present, List.mem_append, List.mem_singleton] at member
    rcases member with member | same
    · have qualifies := qualified segment member
      rw [isQualifier, Bool.and_eq_true, List.all_eq_true] at qualifies
      have plain := qualifies.2 c held
      rw [isNameChar]
      grind
    · rw [List.getLast?_eq_some_getLast present, Option.any_some, ← same] at named
      have known : segment = "Id".toList ∨ segment = "GenericId".toList := by
        have listed : String.ofList segment = "Id" ∨ String.ofList segment = "GenericId" := by
          simpa [identifierNames] using named
        exact listed.imp (fun same => by rw [← same, String.toList_ofList])
          (fun same => by rw [← same, String.toList_ofList])
      have letters : ∀ c ∈ "Id".toList ++ "GenericId".toList, isNameChar c = true := by
        simp [isNameChar, isAlphanumeric]
      refine letters c (List.mem_append.mpr ?_)
      rcases known with rfl | rfl
      · exact .inl held
      · exact .inr held

/-! ### Names with arguments -/

/-- **The texts of identifier types**: a name of one, an argument in angle brackets, nothing more. -/
theorem identifierArgument?_eq_some_iff {text : String} {argument : List Char} :
    identifierArgument? text = some argument ↔ ∃ name inner,
      text.toList = name ++ '<' :: (inner ++ ['>']) ∧ namesIdentifier name = true ∧
        argument = trimWhile isBlank inner := by
  rw [identifierArgument?]
  constructor
  · intro found
    simp only [Option.bind_eq_bind, Option.bind_eq_some_iff, Prod.exists] at found
    obtain ⟨name, rest, cut, inner, closed, named⟩ := found
    obtain ⟨whole, _⟩ := cutAt?_eq_some_iff.mp cut
    have closing := beforeLast?_eq_some_iff.mp closed
    split at named
    · rename_i names
      exact ⟨name, inner, closing ▸ whole, names, (Option.some.inj named).symm⟩
    · cases named
  · rintro ⟨name, inner, whole, names, rfl⟩
    have free : '<' ∉ name := fun inside => by cases isNameChar_of_mem names inside
    rw [cutAt?_eq_some_iff.mpr ⟨whole, free⟩]
    simp [beforeLast?_eq_some_iff.mpr rfl, names]

/-- A text that does not end in an angle bracket names no identifiers. -/
theorem identifierArgument?_of_getLast? {text : String} {last : Char}
    (ending : text.toList.getLast? = some last) (different : last ≠ '>') :
    identifierArgument? text = none := by
  rw [Option.eq_none_iff_forall_ne_some]
  intro argument found
  obtain ⟨name, inner, whole, _⟩ := identifierArgument?_eq_some_iff.mp found
  rw [whole, ← List.cons_append, ← List.append_assoc, List.getLast?_concat] at ending
  exact different (Option.some.inj ending).symm

theorem identifierArgument?_append (front : String) {ending : String} {last : Char}
    (closes : ending.toList.getLast? = some last) (different : last ≠ '>') :
    identifierArgument? (front ++ ending) = none := by
  refine identifierArgument?_of_getLast? ?_ different
  rw [String.toList_append, List.getLast?_append, closes, Option.some_or]

/-- A text with a character in front that no name has names no identifiers. -/
theorem identifierArgument?_of_front {text : String} {front rest : List Char}
    (whole : text.toList = front ++ rest) (unopened : '<' ∉ front) {c : Char} (inside : c ∈ front)
    (foreign : isNameChar c = false) : identifierArgument? text = none := by
  rw [Option.eq_none_iff_forall_ne_some]
  intro argument found
  obtain ⟨name, inner, same, names, _⟩ := identifierArgument?_eq_some_iff.mp found
  rw [whole] at same
  have held : c ∈ name := by
    obtain ⟨more, rfl, _⟩ | ⟨more, rfl, opened⟩ := List.append_eq_append_iff.mp same
    · exact List.mem_append_left _ inside
    · cases more with
      | nil => simpa using inside
      | cons head tail =>
        rw [List.cons_append, List.cons.injEq] at opened
        exact absurd (by simp [← opened.1]) unopened
  rw [isNameChar_of_mem names held] at foreign
  cases foreign

/-- A name of an identifier type with an argument in brackets names identifiers. -/
theorem identifierArgument?_reference {name : String} (names : namesIdentifier name.toList = true)
    (inner : String) :
    identifierArgument? (name ++ "<" ++ inner ++ ">") = some (trimWhile isBlank inner.toList) := by
  refine identifierArgument?_eq_some_iff.mpr ⟨name.toList, inner.toList, ?_, names, rfl⟩
  simp [String.toList_append]

/-- Another name with an argument in brackets does not. -/
theorem identifierArgument?_reference_none {name : String} (unopened : '<' ∉ name.toList)
    (other : namesIdentifier name.toList = false) (inner : String) :
    identifierArgument? (name ++ "<" ++ inner ++ ">") = none := by
  have whole : (name ++ "<" ++ inner ++ ">").toList =
      name.toList ++ '<' :: (inner.toList ++ ['>']) := by simp [String.toList_append]
  rw [identifierArgument?, cutAt?_eq_some_iff.mpr ⟨whole, unopened⟩]
  simp [beforeLast?_eq_some_iff.mpr rfl, other]

/-! ### Texts of string literals -/

theorem toList_literalText (value : String) :
    (literalText value).toList = '"' :: value.toList.flatMap quoteChar ++ ['"'] := by
  simp [literalText, String.toList_append]

/-- The text between the quotes of a string literal. -/
theorem unquoted?_literalText (value : String) :
    unquoted? (trimWhile isBlank (literalText value).toList) =
      some (String.ofList (value.toList.flatMap quoteChar)) := by
  rw [toList_literalText, trimWhile_between (by decide) (by decide), List.cons_append, unquoted?]
  simp

theorem length_le_flatMap_quoteChar (chars : List Char) :
    chars.length ≤ (chars.flatMap quoteChar).length := by
  induction chars with
  | nil => exact Nat.le_refl _
  | cons c rest ih =>
    have one : 1 ≤ (quoteChar c).length := by
      rw [quoteChar]
      split <;> simp
    rw [List.flatMap_cons, List.length_append, List.length_cons]
    omega

/-- The value can be read off its text: it has no quote and no backslash. -/
def isLegible (value : String) : Bool :=
  value.toList.all fun c => c != '\\' && c != '"'

theorem flatMap_quoteChar_eq_iff (chars : List Char) :
    chars.flatMap quoteChar = chars ↔ chars.all (fun c => c != '\\' && c != '"') = true := by
  induction chars with
  | nil => simp
  | cons c rest ih =>
    rw [List.flatMap_cons, List.all_cons, Bool.and_eq_true, ← ih, quoteChar]
    by_cases special : c = '\\' ∨ c = '"'
    · rw [if_pos special]
      constructor
      · intro same
        have longer := length_le_flatMap_quoteChar rest
        have lengths := congrArg List.length same
        simp only [List.length_append, List.length_cons, List.length_nil] at lengths
        omega
      · rintro ⟨plain, _⟩
        simp only [Bool.and_eq_true, bne_iff_ne] at plain
        exact absurd special (not_or.mpr plain)
    · rw [if_neg special]
      simp [not_or.mp special]

/-- **The value of a string literal is read off its text exactly where it is legible.** -/
theorem unquoted?_literalText_eq_iff (value : String) :
    unquoted? (trimWhile isBlank (literalText value).toList) = some value ↔
      isLegible value = true := by
  rw [unquoted?_literalText, Option.some.injEq, isLegible, ← flatMap_quoteChar_eq_iff]
  constructor
  · intro same
    have chars := congrArg String.toList same
    rwa [String.toList_ofList] at chars
  · intro same
    rw [same, String.ofList_toList]

end SwiftBindings.Reduction
