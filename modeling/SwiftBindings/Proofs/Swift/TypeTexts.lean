/-
**The text of a type is unambiguous.**

Where the names in a type are its own (`IsOwnName`), its text is a word, or a word with a marker in angle
brackets, or one or two types in brackets, with at most one question mark behind. `readType?` takes such a
text apart again. The mark belongs to an optional type or, behind `ConvexEncodable`, to the untyped value
that is written; a type is normal where no optional type adds to one that has its mark already
(`SwiftType.isNormal`), and a normal type is read as itself (`readType?_text`).

**The main statement.** `typeText_unambiguous`: normal types with one text are one type, no text has two
question marks in a row, and admitting absence twice, or by the bare constructor, changes no text.
-/

import Mathlib.Data.List.Chain
import Mathlib.Data.List.TakeWhile
import SwiftBindings.Proofs.Swift.ContainedText

namespace SwiftBindings.Swift

/-! ### Types with names of their own -/

/-- The names that the texts of types have for types that no file declares under a derived name. -/
def builtinTypeNames : List String :=
  ["String", "Bool", "Double", "JSONValue", "ConvexEncodable", "ConvexId"]

/-- The name is a plain identifier, and no other name of types. -/
def IsOwnName (name : String) : Prop :=
  isPlainIdentifier name = true ∧ name ∉ builtinTypeNames

instance (name : String) : Decidable (IsOwnName name) :=
  inferInstanceAs (Decidable (_ ∧ _))

/-- No optional type in the type wraps one that admits an absent value as it is. -/
def SwiftType.isNormal : SwiftType → Bool
  | .optional wrapped => !wrapped.admitsAbsence && wrapped.isNormal
  | .array element => element.isNormal
  | .dictionary value => value.isNormal
  | _ => true

/-- The number of types within each other. -/
def SwiftType.depth : SwiftType → Nat
  | .optional wrapped => wrapped.depth + 1
  | .array element => element.depth + 1
  | .dictionary value => value.depth + 1
  | _ => 0

/-! ### Reading a type -/

/-- A character of names. -/
def isNameChar (c : Char) : Bool := c.isAlphanum || c == '_'

/-- The name in front, and what stands behind it. -/
def readTypeName (text : List Char) : String × List Char :=
  (String.ofList (text.takeWhile isNameChar), text.dropWhile isNameChar)

/-- The type that is optional where a question mark stands behind it, and what stands behind that. -/
def withMark (type : SwiftType) : List Char → SwiftType × List Char
  | '?' :: rest => (.optional type, rest)
  | rest => (type, rest)

/-- The type that a name stands for by itself. -/
def typeOfName (name : String) : SwiftType :=
  if name = "String" then .string
  else if name = "Bool" then .bool
  else if name = "Double" then .double
  else if name = "JSONValue" then .jsonValue
  else .named name

/-- The type that a name with what stands behind it opens. -/
def readNamed? (name : String) (behind : List Char) : Option (SwiftType × List Char) :=
  if name = "ConvexEncodable" then
    match behind with
    | '?' :: rest => some (.encodable, rest)
    | _ => none
  else if name = "ConvexId" then
    match behind with
    | '<' :: rest =>
      match readTypeName rest with
      | (marker, '>' :: after) => some (withMark (.id marker) after)
      | _ => none
    | _ => none
  else some (withMark (typeOfName name) behind)

/-- The type in front, and what stands behind it, through at most the given number of brackets. -/
def readType? : Nat → List Char → Option (SwiftType × List Char)
  | 0, _ => none
  | steps + 1, '[' :: rest =>
    (readType? steps rest).bind fun (element, behind) =>
      match behind with
      | ']' :: after => some (withMark (.array element) after)
      | ':' :: ' ' :: valueText =>
        (readType? steps valueText).bind fun (value, behind) =>
          match behind with
          | ']' :: after => some (withMark (.dictionary value) after)
          | _ => none
      | _ => none
  | _ + 1, text =>
    let (name, behind) := readTypeName text
    readNamed? name behind

/-- No name goes on at the start of the text. -/
def EndsName (rest : List Char) : Prop :=
  ∀ c, rest.head? = some c → isNameChar c = false

theorem endsName_cons {c : Char} (rest : List Char) (other : isNameChar c = false) :
    EndsName (c :: rest) := by
  intro first found
  rwa [← Option.some.inj found]

theorem readTypeName_append {name : String} (plain : ∀ c ∈ name.toList, isNameChar c = true)
    {rest : List Char} (ends : EndsName rest) : readTypeName (name.toList ++ rest) = (name, rest) := by
  have none : rest.takeWhile isNameChar = [] ∧ rest.dropWhile isNameChar = rest := by
    cases rest with
    | nil => exact ⟨rfl, rfl⟩
    | cons c rest =>
      have other : ¬isNameChar c = true := by
        rw [ends c rfl]
        exact Bool.false_ne_true
      exact ⟨List.takeWhile_cons_of_neg other, List.dropWhile_cons_of_neg other⟩
  rw [readTypeName, List.takeWhile_append_of_pos plain, List.dropWhile_append_of_pos plain, none.1,
    none.2, List.append_nil, String.ofList_toList]

theorem isNameChar_of_plain {name : String} (plain : isPlainIdentifier name = true) :
    ∀ c ∈ name.toList, isNameChar c = true := by
  intro c member
  rw [isNameChar, Bool.or_eq_true, beq_iff_eq]
  exact (isPlainIdentifier_iff.mp plain).2 c member

/-- A text that a name starts is read by the name. -/
theorem readType?_name {name : String} (plain : isPlainIdentifier name = true) {rest : List Char}
    (ends : EndsName rest) (steps : Nat) :
    readType? (steps + 1) (name.toList ++ rest) = readNamed? name rest := by
  have read := readTypeName_append (isNameChar_of_plain plain) ends
  obtain ⟨⟨first, found, _⟩, inner⟩ := isPlainIdentifier_iff.mp plain
  obtain ⟨others, same⟩ : ∃ others, name.toList = first :: others := by
    cases chars : name.toList with
    | nil =>
      rw [chars] at found
      cases found
    | cons c others =>
      rw [chars] at found
      exact ⟨others, congrArg (· :: others) (Option.some.inj found)⟩
  have bracket : first ≠ '[' := by
    rintro rfl
    have part := inner '[' (same ▸ List.mem_cons_self ..)
    exact absurd part (by unfold IsNamePart; decide)
  have opened : readType? (steps + 1) (name.toList ++ rest) =
      readNamed? (readTypeName (name.toList ++ rest)).1 (readTypeName (name.toList ++ rest)).2 := by
    rw [same, List.cons_append, readType?.eq_def]
    split
    · rename_i wrong
      cases wrong
    · rename_i wrong
      exact absurd (List.cons.inj wrong).1 bracket
    · rename_i steps' _ counted
      rfl
  rw [opened, read]

theorem typeOfName_of_own {name : String} (own : name ∉ builtinTypeNames) :
    typeOfName name = .named name := by
  simp only [builtinTypeNames, List.mem_cons, List.not_mem_nil, or_false, not_or] at own
  obtain ⟨string, bool, double, json, _⟩ := own
  rw [typeOfName, if_neg string, if_neg bool, if_neg double, if_neg json]

theorem readNamed?_of_own {name : String} (own : name ∉ builtinTypeNames) (rest : List Char) :
    readNamed? name rest = some (withMark (.named name) rest) := by
  have same := typeOfName_of_own own
  simp only [builtinTypeNames, List.mem_cons, List.not_mem_nil, or_false, not_or] at own
  obtain ⟨_, _, _, _, encodable, identifier⟩ := own
  show (if _ then _ else if _ then _ else some (withMark (typeOfName name) rest)) = _
  rw [if_neg encodable, if_neg identifier, same]

/-! ### Reading the text of a type -/

/-- What is read where a type stands in front: a type that admits absence has its mark, another one is
followed by none or becomes optional. -/
def readAs (type : SwiftType) (rest : List Char) : SwiftType × List Char :=
  if type.admitsAbsence then (type, rest) else withMark type rest

theorem withMark_cons (type : SwiftType) {c : Char} (rest : List Char) (other : c ≠ '?') :
    withMark type (c :: rest) = (type, c :: rest) := by
  rw [withMark.eq_def]
  split
  · rename_i same
    exact absurd (List.cons.inj same).1 other
  · rfl

theorem readAs_cons (type : SwiftType) {c : Char} (rest : List Char) (other : c ≠ '?') :
    readAs type (c :: rest) = (type, c :: rest) := by
  rw [readAs, withMark_cons type rest other, ite_self]

theorem readAs_nil (type : SwiftType) : readAs type [] = (type, []) := by
  exact ite_self _

/-- **A normal type is read from its text**, whatever stands behind it. -/
theorem readType?_text {type : SwiftType} (normal : type.isNormal = true)
    (own : ∀ name ∈ type.names, IsOwnName name) {steps : Nat} (enough : type.depth < steps)
    {rest : List Char} (ends : EndsName rest) :
    readType? steps (type.text.toList ++ rest) = some (readAs type rest) := by
  obtain ⟨steps, rfl⟩ : ∃ fewer, steps = fewer + 1 := ⟨steps - 1, by omega⟩
  induction type generalizing steps rest with
  | string => exact readType?_name (show isPlainIdentifier "String" = true by decide) ends steps
  | bool => exact readType?_name (show isPlainIdentifier "Bool" = true by decide) ends steps
  | double => exact readType?_name (show isPlainIdentifier "Double" = true by decide) ends steps
  | jsonValue => exact readType?_name (show isPlainIdentifier "JSONValue" = true by decide) ends steps
  | encodable =>
    exact readType?_name (show isPlainIdentifier "ConvexEncodable" = true by decide) (endsName_cons rest (by decide)) steps
  | named name =>
    obtain ⟨plain, apart⟩ := own name (List.mem_singleton_self name)
    exact (readType?_name plain ends steps).trans (readNamed?_of_own apart rest)
  | id marker =>
    obtain ⟨plain, _⟩ := own marker (List.mem_singleton_self marker)
    have text : (SwiftType.id marker).text.toList ++ rest =
        "ConvexId".toList ++ '<' :: (marker.toList ++ '>' :: rest) := by
      simp [SwiftType.text]
    have inner := readTypeName_append (isNameChar_of_plain plain) (endsName_cons rest (c := '>') (by decide))
    have opened : readNamed? "ConvexId" ('<' :: (marker.toList ++ '>' :: rest)) =
        match readTypeName (marker.toList ++ '>' :: rest) with
        | (marker, '>' :: after) => some (withMark (.id marker) after)
        | _ => none := rfl
    rw [text, readType?_name (by decide) (endsName_cons _ (by decide)), opened, inner]
    rfl
  | array element ih =>
    rw [SwiftType.depth] at enough
    obtain ⟨steps, rfl⟩ : ∃ fewer, steps = fewer + 1 := ⟨steps - 1, by omega⟩
    have text : (SwiftType.array element).text.toList ++ rest =
        '[' :: (element.text.toList ++ ']' :: rest) := by
      simp [SwiftType.text]
    rw [text, readType?, ih normal own (endsName_cons rest (by decide)) steps (by omega),
      readAs_cons element rest (by decide)]
    rfl
  | dictionary value ih =>
    rw [SwiftType.depth] at enough
    obtain ⟨steps, rfl⟩ : ∃ fewer, steps = fewer + 1 := ⟨steps - 1, by omega⟩
    have text : (SwiftType.dictionary value).text.toList ++ rest =
        '[' :: ("String".toList ++ ':' :: ' ' :: (value.text.toList ++ ']' :: rest)) := by
      simp [SwiftType.text]
    have key : readType? (steps + 1) ("String".toList ++ ':' :: ' ' :: (value.text.toList ++ ']' :: rest)) =
        some (.string, ':' :: ' ' :: (value.text.toList ++ ']' :: rest)) :=
      readType?_name (by decide) (endsName_cons _ (by decide)) steps
    have read := ih normal own (endsName_cons rest (c := ']') (by decide)) steps (by omega)
    rw [readAs_cons value rest (by decide)] at read
    have opened : readType? (steps + 1 + 1)
        ('[' :: ("String".toList ++ ':' :: ' ' :: (value.text.toList ++ ']' :: rest))) =
        (readType? (steps + 1) (value.text.toList ++ ']' :: rest)).bind fun (value, behind) =>
          match behind with
          | ']' :: after => some (withMark (.dictionary value) after)
          | _ => none := by
      rw [readType?, key]
      rfl
    rw [text, opened, read]
    rfl
  | optional wrapped ih =>
    rw [SwiftType.isNormal, Bool.and_eq_true, Bool.not_eq_true'] at normal
    obtain ⟨present, normal⟩ := normal
    rw [SwiftType.depth] at enough
    have text : (SwiftType.optional wrapped).text.toList ++ rest = wrapped.text.toList ++ '?' :: rest := by
      rw [SwiftType.text, if_neg (by rw [present]; exact Bool.false_ne_true)]
      simp
    rw [text, ih normal own (endsName_cons rest (by decide)) steps (by omega), readAs, present]
    rfl

theorem text_injective {first second : SwiftType} (normal : first.isNormal = true)
    (normal' : second.isNormal = true) (own : ∀ name ∈ first.names, IsOwnName name)
    (own' : ∀ name ∈ second.names, IsOwnName name) (same : first.text = second.text) :
    first = second := by
  have ends : EndsName [] := fun _ found => by cases found
  have read := readType?_text normal own
    (Nat.lt_succ_of_le (Nat.le_max_left first.depth second.depth)) ends
  have read' := readType?_text normal' own'
    (Nat.lt_succ_of_le (Nat.le_max_right first.depth second.depth)) ends
  rw [same, read', readAs_nil, readAs_nil] at read
  exact (congrArg Prod.fst (Option.some.inj read)).symm

/-! ### Question marks -/

/-- The two characters are not both question marks. -/
def NotBothMarks (first second : Char) : Prop := ¬(first = '?' ∧ second = '?')

/-- A text without question marks has no two in a row. -/
theorem isChain_of_clean {chars : List Char} (clean : '?' ∉ chars) : chars.IsChain NotBothMarks := by
  induction chars with
  | nil => exact .nil
  | cons c chars ih =>
    obtain ⟨other, clean⟩ := not_or.mp (List.mem_cons.not.mp clean)
    exact List.isChain_cons.mpr ⟨fun _ _ both => other both.1.symm, ih clean⟩

theorem not_mem_mark_of_plain {name : String} (plain : isPlainIdentifier name = true) :
    '?' ∉ name.toList := by
  intro member
  have part := (isPlainIdentifier_iff.mp plain).2 '?' member
  exact absurd part (by unfold IsNamePart; decide)

/-- A text in brackets has no two question marks in a row when the text inside has none. -/
theorem isChain_enclosed {opening inner closing : List Char} (opened : '?' ∉ opening)
    (chain : inner.IsChain NotBothMarks) (closed : '?' ∉ closing) :
    (opening ++ inner ++ closing).IsChain NotBothMarks := by
  refine List.isChain_append.mpr ⟨List.isChain_append.mpr ⟨isChain_of_clean opened, chain, ?_⟩,
    isChain_of_clean closed, ?_⟩
  · intro left last _ _ both
    exact opened (both.1 ▸ List.mem_of_mem_getLast? last)
  · intro _ _ right first both
    exact closed (both.2 ▸ List.mem_of_mem_head? first)

/-- **No two question marks stand in a row**, and only a type that admits absence ends with one. -/
theorem isChain_text {type : SwiftType} (own : ∀ name ∈ type.names, IsOwnName name) :
    type.text.toList.IsChain NotBothMarks ∧
      (type.admitsAbsence = false → type.text.toList.getLast? ≠ some '?') := by
  have unmarked : ∀ {chars : List Char}, '?' ∉ chars →
      chars.IsChain NotBothMarks ∧ chars.getLast? ≠ some '?' := fun clean =>
    ⟨isChain_of_clean clean, fun last => clean (List.mem_of_mem_getLast? last)⟩
  induction type with
  | string | bool | double | jsonValue => exact ⟨isChain_of_clean (by decide), fun _ => by decide⟩
  | encodable =>
    have chain : ("ConvexEncodable".toList ++ ['?']).IsChain NotBothMarks := by
      refine List.isChain_append.mpr ⟨isChain_of_clean (by decide), .singleton _, ?_⟩
      rintro left last _ _ ⟨rfl, _⟩
      exact absurd last (by decide)
    exact ⟨chain, fun wrong => by cases wrong⟩
  | named name =>
    have clean := not_mem_mark_of_plain (own name (List.mem_singleton_self name)).1
    exact ⟨(unmarked clean).1, fun _ => (unmarked clean).2⟩
  | id marker =>
    have clean := not_mem_mark_of_plain (own marker (List.mem_singleton_self marker)).1
    have text : '?' ∉ (SwiftType.id marker).text.toList := by
      simp [SwiftType.text, clean]
    exact ⟨(unmarked text).1, fun _ => (unmarked text).2⟩
  | array element ih =>
    have text : (SwiftType.array element).text.toList = ['['] ++ element.text.toList ++ [']'] := by
      simp [SwiftType.text]
    rw [text]
    exact ⟨isChain_enclosed (by decide) (ih own).1 (by decide), fun _ => by
      rw [List.getLast?_concat]
      decide⟩
  | dictionary value ih =>
    have text : (SwiftType.dictionary value).text.toList =
        "[String: ".toList ++ value.text.toList ++ [']'] := by
      simp [SwiftType.text]
    rw [text]
    exact ⟨isChain_enclosed (by decide) (ih own).1 (by decide), fun _ => by
      rw [List.getLast?_concat]
      decide⟩
  | optional wrapped ih =>
    obtain ⟨chain, last⟩ := ih own
    refine ⟨?_, fun wrong => by cases wrong⟩
    rw [SwiftType.text]
    split
    · exact chain
    · rename_i present
      rw [String.toList_append]
      refine List.isChain_append.mpr ⟨chain, .singleton _, ?_⟩
      rintro left found _ _ ⟨rfl, _⟩
      exact last (Bool.eq_false_iff.mpr present) found

theorem not_infix_marks {type : SwiftType} (own : ∀ name ∈ type.names, IsOwnName name) :
    ¬['?', '?'] <:+: type.text.toList := by
  rintro ⟨before, after, same⟩
  have chain := (isChain_text own).1
  rw [← same] at chain
  have pair := (List.isChain_append.mp (List.isChain_append.mp chain).1).2.1
  exact (List.isChain_cons_cons.mp pair).1 ⟨rfl, rfl⟩

/-- Admitting absence by the method or by the bare constructor gives one text. -/
theorem text_orAbsent (type : SwiftType) : type.orAbsent.text = (SwiftType.optional type).text := by
  rw [SwiftType.orAbsent]
  split
  · rename_i admits
    rw [SwiftType.text, if_pos admits]
  · rfl

/-! ### The main statement -/

/-- **The text of a type is unambiguous.** Normal types with names of their own that have one text are
one type; no text of a type with such names has two question marks in a row; and admitting absence is
idempotent and adds to the text what the bare constructor adds. -/
theorem typeText_unambiguous :
    (∀ first second : SwiftType, first.isNormal = true → second.isNormal = true →
      (∀ name ∈ first.names ++ second.names, IsOwnName name) → first.text = second.text →
        first = second) ∧
      (∀ type : SwiftType, (∀ name ∈ type.names, IsOwnName name) →
        ¬['?', '?'] <:+: type.text.toList) ∧
      ∀ type : SwiftType, type.orAbsent.orAbsent = type.orAbsent ∧
        type.orAbsent.text = (SwiftType.optional type).text := by
  refine ⟨fun first second normal normal' own same => ?_, fun type own => not_infix_marks own,
    fun type => ⟨type.orAbsent_orAbsent, text_orAbsent type⟩⟩
  exact text_injective normal normal' (fun name member => own name (List.mem_append_left _ member))
    (fun name member => own name (List.mem_append_right _ member)) same

/-- The lists of optional rows and the optional lists of rows have texts of their own. -/
theorem optionalLists_unambiguous :
    let inside := SwiftType.array (.optional (.dictionary (.named "Row")))
    let outside := SwiftType.optional (.array (.dictionary (.named "Row")))
    inside.isNormal = true ∧ outside.isNormal = true ∧
      (∀ name ∈ inside.names ++ outside.names, IsOwnName name) ∧ inside.text ≠ outside.text ∧
      ¬['?', '?'] <:+: (SwiftType.optional outside).text.toList := by
  intro inside outside
  have own : ∀ name ∈ inside.names ++ outside.names, IsOwnName name := by decide
  refine ⟨rfl, rfl, own, fun same => ?_, ?_⟩
  · have different : inside ≠ outside := by decide
    exact different (typeText_unambiguous.1 inside outside rfl rfl own same)
  · exact typeText_unambiguous.2.1 (.optional outside) (by decide)

end SwiftBindings.Swift
