/-
**Names that derive from arbitrary text are identifiers.**

A type name, the name of a case and the name of a property all start from words of ASCII letters and
digits, so whatever the text, they are plain identifiers, with an underscore in front of a digit
(`isCapitalName_typeName`, `isPlainIdentifier_camelCase`). Two kinds of reserved words are told apart by
their first letter: a type name can only be one of the three that start with a capital. A key that is a
plain identifier stays as it is, so the lone underscore stays, too.
-/

import Mathlib.Data.List.Basic
import SwiftBindings.Proofs.Swift.Registry

namespace SwiftBindings.Swift

open SwiftBindings.Text

/-! ### Characters of identifiers -/

/-- A letter or digit of ASCII or an underscore. -/
def IsNamePart (c : Char) : Prop := c.isAlphanum = true ∨ c = '_'

/-- What holds of the letters and digits among the first 128 characters holds of all of ASCII. -/
theorem forall_alphanumeric (property : Char → Prop)
    (all : ∀ code < 128, (Char.ofNat code).isAlphanum = true → property (Char.ofNat code))
    {c : Char} (member : c.isAlphanum = true) : property c := by
  have below : c.toNat < 128 := by
    have ranges : (decide (c.val ≥ 'A'.val ∧ c.val ≤ 'Z'.val) || c.val ≥ 'a'.val && c.val ≤ 'z'.val ||
      c.val ≥ '0'.val && c.val ≤ '9'.val) = true := member
    simp only [Bool.or_eq_true, Bool.and_eq_true, decide_eq_true_eq, ge_iff_le,
      UInt32.le_iff_toNat_le] at ranges
    have ends : 'Z'.val.toNat = 90 ∧ 'z'.val.toNat = 122 ∧ '9'.val.toNat = 57 := by decide
    rw [Char.toNat]
    omega
  have same := all c.toNat below
  rw [Char.ofNat_toNat] at same
  exact same member

theorem isAlphanum_toUpper {c : Char} (member : c.isAlphanum = true) :
    c.toUpper.isAlphanum = true ∧ c.toUpper.isLower = false ∧ uppercase c = [c.toUpper] :=
  forall_alphanumeric (fun c => c.toUpper.isAlphanum = true ∧ c.toUpper.isLower = false ∧
    uppercase c = [c.toUpper]) (by decide) member

theorem isAlphanum_toLower {c : Char} (member : c.isAlphanum = true) :
    c.toLower.isAlphanum = true :=
  forall_alphanumeric (fun c => c.toLower.isAlphanum = true) (by decide) member

/-- A letter is no digit. -/
theorem isAlpha_iff {c : Char} : c.isAlpha = true ↔ c.isAlphanum = true ∧ c.isDigit = false := by
  constructor
  · intro letter
    have member : c.isAlphanum = true := by rw [Char.isAlphanum, letter, Bool.true_or]
    exact ⟨member, forall_alphanumeric (fun c => c.isAlpha = true → c.isDigit = false) (by decide)
      member letter⟩
  · rintro ⟨member, other⟩
    rwa [Char.isAlphanum, other, Bool.or_false] at member

/-! ### Plain identifiers -/

/-- **A plain identifier** has characters, none of them outside the identifiers, and starts with no
digit. -/
theorem isPlainIdentifier_iff {name : String} : isPlainIdentifier name = true ↔
    (∃ first, name.toList.head? = some first ∧ first.isDigit = false) ∧
      ∀ c ∈ name.toList, IsNamePart c := by
  rw [isPlainIdentifier]
  cases name.toList with
  | nil => simp
  | cons first rest =>
    have initial : (first.isAlpha || first == '_') = true ↔
        first.isDigit = false ∧ IsNamePart first := by
      rw [Bool.or_eq_true, isAlpha_iff, beq_iff_eq, IsNamePart]
      constructor
      · rintro (⟨member, other⟩ | rfl)
        · exact ⟨other, .inl member⟩
        · exact ⟨rfl, .inr rfl⟩
      · rintro ⟨other, member | same⟩
        · exact .inl ⟨member, other⟩
        · exact .inr same
    rw [Bool.and_eq_true, initial, List.all_eq_true, List.forall_mem_cons, and_assoc]
    simp only [Bool.or_eq_true, beq_iff_eq, IsNamePart, List.head?_cons, Option.some.injEq,
      exists_eq_left']

/-- A plain identifier stays one when digits, letters and underscores are put behind it. -/
theorem isPlainIdentifier_append {name ending : String} (plain : isPlainIdentifier name = true)
    (parts : ∀ c ∈ ending.toList, IsNamePart c) : isPlainIdentifier (name ++ ending) = true := by
  obtain ⟨⟨first, found, other⟩, inner⟩ := isPlainIdentifier_iff.mp plain
  rw [isPlainIdentifier_iff, String.toList_append]
  refine ⟨⟨first, ?_, other⟩, List.forall_mem_append.mpr ⟨inner, parts⟩⟩
  rw [List.head?_append, found, Option.some_or]

theorem ne_empty_of_isPlainIdentifier {name : String} (plain : isPlainIdentifier name = true) :
    name.toList ≠ [] := by
  obtain ⟨⟨first, found, _⟩, _⟩ := isPlainIdentifier_iff.mp plain
  rintro none
  rw [none] at found
  cases found

theorem isDigit_of_mem_toString {number : Nat} {c : Char} (member : c ∈ (toString number).toList) :
    c.isDigit = true := by
  rw [Nat.toString_eq_repr, Nat.toList_repr] at member
  exact Nat.isDigit_of_mem_toDigits (by decide) (by decide) member

theorem isNamePart_of_mem_toString {number : Nat} {c : Char}
    (member : c ∈ (toString number).toList) : IsNamePart c := by
  refine .inl ?_
  rw [Char.isAlphanum, isDigit_of_mem_toString member, Bool.or_true]

/-- A plain identifier with a number behind it is one, but not the lone underscore. -/
theorem isPlainIdentifier_numbered {name : String} (plain : isPlainIdentifier name = true)
    (number : Nat) :
    isPlainIdentifier (name ++ toString number) = true ∧ name ++ toString number ≠ "_" := by
  refine ⟨isPlainIdentifier_append plain fun _ member => isNamePart_of_mem_toString member, ?_⟩
  intro same
  have lengths := congrArg String.length same
  have present := List.length_pos_iff.mpr (ne_empty_of_isPlainIdentifier plain)
  have digits := Nat.length_repr_pos (n := number)
  rw [String.length_append, Nat.toString_eq_repr] at lengths
  rw [String.length_toList] at present
  have one : "_".length = 1 := rfl
  omega

/-! ### Words -/

/-- No piece of a list has an item that the list was split at. -/
theorem not_of_mem_splitOnP {α : Type} {test : α → Bool} {items piece : List α}
    (member : piece ∈ items.splitOnP test) : ∀ item ∈ piece, test item = false := by
  induction items generalizing piece with
  | nil =>
    rw [List.splitOnP_nil, List.mem_singleton] at member
    simp [member]
  | cons first rest ih =>
    rw [List.splitOnP_cons_eq_if_modifyHead] at member
    split at member
    · rcases List.mem_cons.mp member with rfl | member
      · simp
      · exact ih member
    · rename_i kept
      obtain ⟨head, others, parts⟩ := List.exists_cons_of_ne_nil (List.splitOnP_ne_nil test rest)
      rw [parts] at member ih
      rw [List.modifyHead_cons, List.mem_cons] at member
      rcases member with rfl | member
      · exact List.forall_mem_cons.mpr ⟨Bool.eq_false_iff.mpr kept, ih List.mem_cons_self⟩
      · exact ih (List.mem_cons_of_mem _ member)

/-- A word has characters, all of them letters and digits of ASCII. -/
theorem isAlphanum_of_mem_words {chars word : List Char} (member : word ∈ words chars) :
    word ≠ [] ∧ ∀ c ∈ word, c.isAlphanum = true := by
  obtain ⟨piece, present⟩ := List.mem_filter.mp member
  refine ⟨by simpa using present, fun c held => ?_⟩
  have kept := not_of_mem_splitOnP piece c held
  rwa [Bool.not_eq_false'] at kept

/-- A capitalised word has letters and digits, the first of them no small letter. -/
theorem capitalizeChars_spec {word : List Char} (present : word ≠ [])
    (parts : ∀ c ∈ word, c.isAlphanum = true) :
    (∃ first rest, capitalizeChars word = first :: rest ∧ first.isLower = false) ∧
      ∀ c ∈ capitalizeChars word, c.isAlphanum = true := by
  cases word with
  | nil => exact absurd rfl present
  | cons c rest =>
    obtain ⟨kept, large, same⟩ := isAlphanum_toUpper (parts c List.mem_cons_self)
    rw [capitalizeChars, same, List.singleton_append]
    refine ⟨⟨_, _, rfl, large⟩, List.forall_mem_cons.mpr ⟨kept, ?_⟩⟩
    exact fun other member => parts other (List.mem_cons_of_mem _ member)

/-- Letters and digits with an underscore in front of a digit are an identifier. -/
theorem isPlainIdentifier_guardDigit {chars : List Char} (present : chars ≠ [])
    (parts : ∀ c ∈ chars, c.isAlphanum = true) :
    isPlainIdentifier (String.ofList (guardDigit chars)) = true ∧
      String.ofList (guardDigit chars) ≠ "_" := by
  cases chars with
  | nil => exact absurd rfl present
  | cons first rest =>
    rw [guardDigit, isPlainIdentifier_iff, ← String.toList_inj.ne, String.toList_ofList]
    have named : ∀ c ∈ first :: rest, IsNamePart c := fun c member => .inl (parts c member)
    split
    · refine ⟨⟨⟨_, rfl, rfl⟩, List.forall_mem_cons.mpr ⟨.inr rfl, named⟩⟩, ?_⟩
      intro same
      cases same
    · rename_i other
      refine ⟨⟨⟨_, rfl, Bool.eq_false_iff.mpr other⟩, named⟩, ?_⟩
      intro same
      cases same
      cases parts '_' List.mem_cons_self

/-! ### Member names -/

/-- **The member name of a text is an identifier**, whatever the text. -/
theorem isPlainIdentifier_camelCase (text : String) :
    isPlainIdentifier (camelCase text) = true ∧ camelCase text ≠ "_" := by
  rw [camelCase]
  have known : ∀ word ∈ (words text.toList).map (fun word =>
      if (!text.toList.any Char.isLower) then word.map Char.toLower else word),
      word ≠ [] ∧ ∀ c ∈ word, c.isAlphanum = true := by
    intro word member
    obtain ⟨origin, inside, rfl⟩ := List.mem_map.mp member
    obtain ⟨present, parts⟩ := isAlphanum_of_mem_words inside
    split
    · refine ⟨by simpa using present, fun c member => ?_⟩
      obtain ⟨letter, held, rfl⟩ := List.mem_map.mp member
      exact isAlphanum_toLower (parts letter held)
    · exact ⟨present, parts⟩
  generalize (words text.toList).map _ = list at known ⊢
  cases list with
  | nil => decide
  | cons first rest =>
    obtain ⟨⟨present, parts⟩, others⟩ := List.forall_mem_cons.mp known
    refine isPlainIdentifier_guardDigit ?_ ?_
    · cases first with
      | nil => exact absurd rfl present
      | cons c rest => exact List.cons_ne_nil _ _
    · refine List.forall_mem_append.mpr ⟨?_, fun c member => ?_⟩
      · cases first with
        | nil => exact absurd rfl present
        | cons c rest =>
          obtain ⟨initial, more⟩ := List.forall_mem_cons.mp parts
          exact List.forall_mem_cons.mpr ⟨isAlphanum_toLower initial, more⟩
      · obtain ⟨word, inside, held⟩ := List.mem_flatMap.mp member
        obtain ⟨present, parts⟩ := others word inside
        exact (capitalizeChars_spec present parts).2 c held

/-! ### Type names -/

/-- An identifier that starts with a capital or an underscore, and is more than the latter. -/
structure IsCapitalName (name : String) : Prop where
  /-- It is an identifier. -/
  plain : isPlainIdentifier name = true
  /-- It starts with no small letter. -/
  capital : ∃ first, name.toList.head? = some first ∧ first.isLower = false
  /-- It is not the lone underscore. -/
  worded : name ≠ "_"

theorem IsCapitalName.append {name ending : String} (capital : IsCapitalName name)
    (parts : ∀ c ∈ ending.toList, IsNamePart c) : IsCapitalName (name ++ ending) where
  plain := isPlainIdentifier_append capital.plain parts
  capital := by
    obtain ⟨first, found, large⟩ := capital.capital
    exact ⟨first, by rw [String.toList_append, List.head?_append, found, Option.some_or], large⟩
  worded := by
    intro same
    have chars := congrArg String.toList same
    rw [String.toList_append] at chars
    have present := ne_empty_of_isPlainIdentifier capital.plain
    have none : ending.toList = [] := by
      rcases List.append_eq_singleton_iff.mp chars with ⟨absent, _⟩ | ⟨_, none⟩
      · exact absurd absent present
      · exact none
    rw [none, List.append_nil] at chars
    exact capital.worded (String.toList_inj.mp chars)

/-- **The type name of a path is an identifier** that starts with no small letter, whatever the
segments. -/
theorem isCapitalName_typeName (path : List String) : IsCapitalName (typeName path) := by
  rw [typeName, pascalCase]
  have known : ∀ c ∈ (words ("_".intercalate path).toList).flatMap capitalizeChars,
      c.isAlphanum = true := by
    intro c member
    obtain ⟨word, inside, held⟩ := List.mem_flatMap.mp member
    obtain ⟨present, parts⟩ := isAlphanum_of_mem_words inside
    exact (capitalizeChars_spec present parts).2 c held
  have initial : ∀ first, ((words ("_".intercalate path).toList).flatMap capitalizeChars).head? =
      some first → first.isLower = false := by
    intro first found
    cases list : words ("_".intercalate path).toList with
    | nil =>
      rw [list] at found
      cases found
    | cons word rest =>
      obtain ⟨present, parts⟩ := isAlphanum_of_mem_words (list ▸ List.mem_cons_self)
      obtain ⟨⟨c, more, same, large⟩, _⟩ := capitalizeChars_spec present parts
      rw [list, List.flatMap_cons, same] at found
      cases found
      exact large
  generalize (words ("_".intercalate path).toList).flatMap capitalizeChars = chars at known initial
  rw [String.toList_ofList]
  split
  · exact ⟨by decide, ⟨'V', by decide, rfl⟩, by decide⟩
  · rename_i filled
    have present : chars ≠ [] := by
      rintro rfl
      exact filled rfl
    obtain ⟨plain, worded⟩ := isPlainIdentifier_guardDigit present known
    refine ⟨plain, ?_, worded⟩
    cases chars with
    | nil => exact absurd rfl present
    | cons first rest =>
      rw [String.toList_ofList, guardDigit]
      split
      · exact ⟨'_', rfl, rfl⟩
      · exact ⟨first, rfl, initial first rfl⟩

/-- The names that are tried for a declaration are such names, too. -/
theorem IsCapitalName.candidateName {base : String} (capital : IsCapitalName base)
    (attempt : Nat) : IsCapitalName (candidateName base attempt) := by
  rw [Swift.candidateName]
  split
  · exact capital
  · exact capital.append fun _ member => isNamePart_of_mem_toString member

/-- The reserved words that a type name can be. -/
theorem IsCapitalName.reserved {name : String} (capital : IsCapitalName name)
    (reserved : name ∈ reservedWords) : name ∈ ["Any", "Self", "Type"] := by
  have small : ∀ word ∈ reservedWords, word.toList.head?.any Char.isLower = true ∨
      word ∈ ["Any", "Self", "Type"] := by decide
  obtain ⟨first, found, large⟩ := capital.capital
  refine (small name reserved).resolve_left ?_
  rw [found, Option.any_some, large]
  exact Bool.false_ne_true

end SwiftBindings.Swift
