/-
**Which generated names are identifiers.**

An identifier of the generated code starts with a letter or an underscore, goes on with letters, digits
and underscores, is not the lone underscore, and stands in backticks where it is reserved
(`IsIdentifier`). All names are made from such text, whatever they derive from, and two kinds of them
still are no identifiers: the key `_` is a plain identifier to the naming of properties and stays as it
is, and type names are never put in backticks, although three reserved words start with a capital.

**The main statement.** `identifiers_iff`: after a run of renderings these are the only exceptions, and
they are met exactly where a struct has the key `_`, or a path derives one of the three words.
`underscore_and_any_stay` has one of each.
-/

import SwiftBindings.Proofs.Swift.DistinctNames
import SwiftBindings.Proofs.Swift.Members
import SwiftBindings.Proofs.Swift.Origins
import SwiftBindings.Proofs.Swift.WireKeys

namespace SwiftBindings.Swift

/-! ### Identifiers -/

/-- The name is an identifier other than the lone underscore, in backticks where it is reserved. -/
def IsIdentifier (name : String) : Prop :=
  isPlainIdentifier (withoutBackticks name) = true ∧ withoutBackticks name ≠ "_" ∧
    (withoutBackticks name ∈ reservedWords → name = inBackticks (withoutBackticks name))

instance (name : String) : Decidable (IsIdentifier name) :=
  inferInstanceAs (Decidable (_ ∧ _ ∧ _))

/-- **A name that is made from a word is an identifier**, unless it is the lone underscore. -/
theorem NamedAfter.isIdentifier_iff {word text name : String} (named : NamedAfter word text name)
    (plain : isPlainIdentifier word = true) : IsIdentifier name ↔ name ≠ "_" := by
  constructor
  · rintro ⟨_, worded, _⟩ rfl
    exact worded ((withoutBackticks_of_plain (by decide)).1)
  · intro other
    rw [IsIdentifier, named.withoutBackticks plain]
    refine ⟨named.plain plain, ?_, fun reserved => ?_⟩
    · rintro rfl
      rcases named.1 with rfl | ⟨number, _, same⟩
      · exact other named.2
      · exact (isPlainIdentifier_numbered plain number).2 same.symm
    · cases named.eq_of_reserved reserved
      rw [named.2, spelled, if_pos reserved]

/-- The lone underscore is made from no word but itself. -/
theorem NamedAfter.eq_underscore {word text : String} (named : NamedAfter word text "_")
    (plain : isPlainIdentifier word = true) : word = "_" := by
  have same := named.withoutBackticks plain
  rw [(withoutBackticks_of_plain (by decide)).1] at same
  subst same
  rcases named.1 with same | ⟨number, _, same⟩
  · exact same.symm
  · exact absurd same.symm (isPlainIdentifier_numbered plain number).2

/-- The reserved words that start with a capital. -/
def reservedTypeNames : List String := ["Any", "Self", "Type"]

/-- **A type name is an identifier** unless it is reserved: it is never put in backticks. -/
theorem IsCapitalName.isIdentifier_iff {name : String} (capital : IsCapitalName name) :
    IsIdentifier name ↔ name ∉ reservedTypeNames := by
  have words : ∀ word ∈ reservedTypeNames, word ∈ reservedWords := by decide
  rw [IsIdentifier, (withoutBackticks_of_plain capital.plain).1]
  constructor
  · rintro ⟨_, _, ticked⟩ reserved
    exact ne_inBackticks_of_plain capital.plain name (ticked (words name reserved))
  · exact fun free => ⟨capital.plain, capital.worded, fun reserved =>
      absurd (capital.reserved reserved) free⟩

/-! ### The lone underscore -/

/-- Every base is among the names, once it is not taken. -/
theorem mem_freshNames_of_base {base : String} {taken bases : List String} (member : base ∈ bases) :
    base ∈ taken ++ freshNames taken bases := by
  induction bases generalizing taken with
  | nil => cases member
  | cons first rest ih =>
    rw [freshNames, List.append_cons]
    rcases List.mem_cons.mp member with rfl | member
    · refine List.mem_append_left _ ?_
      rcases freshName_cases base taken with ⟨_, same⟩ | ⟨held, _⟩
      · exact List.mem_append_right _ (List.mem_singleton.mpr same.symm)
      · exact List.mem_append_left _ held
    · exact ih member

/-- Only the lone underscore is spelled like it. -/
theorem eq_underscore_of_escapeReserved {word : String} (plain : isPlainIdentifier word = true)
    (same : escapeReserved word = "_") : word = "_" := by
  have bare := withoutBackticks_spelled word plain
  rw [← escapeReserved_eq, same, (withoutBackticks_of_plain (by decide)).1] at bare
  exact bare.symm

/-- The lone underscore comes from the key that it is. -/
theorem propertyName_eq_underscore {key : String} : propertyName key = "_" ↔ key = "_" := by
  constructor
  · intro same
    rw [propertyName] at same
    split at same
    · exact eq_underscore_of_escapeReserved ‹_› same
    · obtain ⟨plain, worded⟩ := isPlainIdentifier_camelCase key
      exact absurd (eq_underscore_of_escapeReserved plain same) worded
  · rintro rfl
    decide

theorem caseName_ne_underscore (literal : String) : caseName literal ≠ "_" := by
  obtain ⟨plain, worded⟩ := isPlainIdentifier_camelCase literal
  exact fun same => worded (eq_underscore_of_escapeReserved plain same)

/-- **A property is called by the lone underscore** exactly where one has it as its key. -/
theorem underscore_mem_freshNames {fields : List Field} :
    "_" ∈ freshNames generatedMembers (propertyBases fields) ↔ "_" ∈ fields.map Field.name := by
  constructor
  · intro member
    obtain ⟨word, text, plain, inside, named⟩ :=
      exists_namedAfter isMemberBase_of_mem_propertyBases member
    cases named.eq_underscore plain
    obtain ⟨field, held, same⟩ := List.mem_map.mp inside
    refine List.mem_map.mpr ⟨field, held, propertyName_eq_underscore.mp ?_⟩
    rw [same]
    decide
  · intro member
    obtain ⟨field, held, same⟩ := List.mem_map.mp member
    have base : "_" ∈ propertyBases fields :=
      List.mem_map.mpr ⟨field, held, propertyName_eq_underscore.mpr same⟩
    exact (List.mem_append.mp (mem_freshNames_of_base base)).resolve_left (by decide)

/-- No case is called by the lone underscore. -/
theorem underscore_not_mem_cases (values : List String) :
    "_" ∉ freshNames [] (values.map caseName) := by
  intro member
  obtain ⟨word, text, plain, inside, named⟩ := exists_namedAfter isMemberBase_of_mem_cases member
  cases named.eq_underscore plain
  obtain ⟨value, _, same⟩ := List.mem_map.mp inside
  exact caseName_ne_underscore value (same.trans (by decide))

/-! ### Names of declarations -/

/-- The names of a declaration's members. -/
def Declaration.memberNames : Declaration → List String
  | .struct declared => declared.memberNames
  | .enumeration declared => declared.memberNames
  | .marker _ => []

/-- The keys on the wire of a declaration's properties. -/
def Declaration.keys : Declaration → List String
  | .struct declared => declared.keys
  | .enumeration _ | .marker _ => []

/-- A letter that no reserved word with a capital has keeps a name apart from them. -/
theorem not_reserved_of_letter {name ending : String} (letter : Char)
    (inside : letter ∈ ending.toList) (apart : ∀ word ∈ reservedTypeNames, letter ∉ word.toList)
    (attempt : Nat) : candidateName (name ++ ending) attempt ∉ reservedTypeNames := by
  intro reserved
  refine apart _ reserved ?_
  rw [candidateName]
  split <;> simp [inside]

section Made

variable {registry : Registry} {declaration : Declaration} (made : declaration.Made registry)

include made

/-- Only structs can have a reserved name. -/
theorem Declaration.Made.exists_struct (reserved : declaration.name ∈ reservedTypeNames) :
    ∃ declared, declaration = .struct declared := by
  cases made with
  | struct rendered => exact ⟨_, rfl⟩
  | enumeration path attempt values =>
    exact absurd reserved (not_reserved_of_letter 'E' (by decide) (by decide) attempt)
  | marker attempt table =>
    exact absurd reserved (not_reserved_of_letter 'b' (by decide) (by decide) attempt)

/-- Names of members are made from words. -/
theorem Declaration.Made.exists_namedAfter {name : String} (member : name ∈ declaration.memberNames) :
    ∃ word text, isPlainIdentifier word = true ∧ NamedAfter word text name := by
  cases made with
  | struct rendered =>
    obtain ⟨before, path, attempt, _, same, _⟩ := rendered
    rw [Declaration.memberNames, Struct.memberNames, same, Registry.names_renderProperties] at member
    obtain ⟨word, text, plain, _, named⟩ :=
      Swift.exists_namedAfter isMemberBase_of_mem_propertyBases member
    exact ⟨word, text, plain, named⟩
  | enumeration path attempt values =>
    rw [Declaration.memberNames, Enumeration.memberNames, Case.names_ofValues] at member
    obtain ⟨word, text, plain, _, named⟩ := Swift.exists_namedAfter isMemberBase_of_mem_cases member
    exact ⟨word, text, plain, named⟩
  | marker attempt table => cases member

/-- Names of members are identifiers but for the lone underscore. -/
theorem Declaration.Made.members {name : String} (member : name ∈ declaration.memberNames) :
    IsIdentifier name ↔ name ≠ "_" := by
  obtain ⟨word, text, plain, named⟩ := made.exists_namedAfter member
  exact named.isIdentifier_iff plain

/-- The lone underscore is the name of a property exactly where it is a key. -/
theorem Declaration.Made.underscore_mem_iff :
    "_" ∈ declaration.memberNames ↔ "_" ∈ declaration.keys := by
  cases made with
  | struct rendered =>
    obtain ⟨before, path, attempt, _, same, _⟩ := rendered
    rw [Declaration.memberNames, Struct.memberNames, Declaration.keys, Struct.keys, same,
      Registry.names_renderProperties, Registry.keys_renderProperties]
    exact underscore_mem_freshNames
  | enumeration path attempt values =>
    rw [Declaration.memberNames, Enumeration.memberNames, Case.names_ofValues]
    exact iff_of_false (underscore_not_mem_cases values) List.not_mem_nil
  | marker attempt table => exact Iff.rfl

end Made

/-! ### Runs -/

/-- The names that a request derives for declarations. -/
def Request.typeNames : Request → List String
  | .type validator path _ => shapeTypeNames path validator.shape
  | .struct fields path _ => structTypeNames path fields

theorem Registry.Declares.answers {registry : Registry} {names : List String}
    (declares : registry.Declares names) (requests : List Request) :
    (registry.answers requests).2.Declares (names ++ requests.flatMap Request.typeNames) := by
  induction requests generalizing registry names with
  | nil =>
    rw [List.flatMap_nil, List.append_nil]
    exact declares
  | cons request rest ih =>
    rw [List.flatMap_cons, ← List.append_assoc]
    refine ih ?_
    cases request with
    | type validator path side => exact declares.renderShape path side validator.shape
    | struct fields path side => exact declares.renderStruct fields path side

/-- No reserved word ends in a digit. -/
theorem not_endsInDigit_of_reserved {word : String} (reserved : word ∈ reservedTypeNames) :
    ¬EndsInDigit word := by
  have words : ∀ word ∈ reservedTypeNames, word ∈ reservedWords := by decide
  rintro ⟨last, found, digit⟩
  rw [isDigit_of_reserved (words word reserved) (List.mem_of_getLast? found)] at digit
  cases digit

/-- **Which names are identifiers.** After a run, the name of a declaration is one unless it is a
reserved word that starts with a capital, which only a struct can be, and the name of a member unless
it is the lone underscore, which only the key `_` is called by. The reserved words are met exactly
where they derive from a path of the run. The other name of a result is always an identifier. -/
theorem identifiers_iff (requests : List Request) (source : String) (shapes : List Api.FunctionShape) :
    (∀ declaration ∈ (Registry.empty.answers requests).2.declarations,
      (IsIdentifier declaration.name ↔ declaration.name ∉ reservedTypeNames) ∧
      (declaration.name ∈ reservedTypeNames → ∃ declared, declaration = .struct declared) ∧
      (∀ name ∈ declaration.memberNames, IsIdentifier name ↔ name ≠ "_") ∧
      ("_" ∈ declaration.memberNames ↔ "_" ∈ declaration.keys)) ∧
    (∀ word ∈ reservedTypeNames,
      word ∈ (Registry.empty.answers requests).2.declarations.map Declaration.name ↔
        word ∈ requests.flatMap Request.typeNames) ∧
    ∀ other ∈ (Api.bindings source shapes).aliases, IsIdentifier other.name := by
  refine ⟨fun declaration registered => ?_, fun word reserved => ?_, fun other member => ?_⟩
  · have made := Registry.allMade_answers requests declaration registered
    exact ⟨made.isCapitalName.isIdentifier_iff, made.exists_struct, fun _ => made.members,
      made.underscore_mem_iff⟩
  · have declares := Registry.declares_empty.answers requests
    exact declares word (not_endsInDigit_of_reserved reserved)
  · have names := (Api.registerAll_declares Registry.declares_empty shapes).1
    have inside : other.name ∈ shapes.flatMap Api.FunctionShape.aliasNames := by
      rw [← names]
      exact List.mem_map_of_mem member
    obtain ⟨shape, _, held⟩ := List.mem_flatMap.mp inside
    have last := Api.FunctionShape.getLast?_aliasNames held
    rw [Api.FunctionShape.aliasNames] at held
    split at held
    · cases held
    · rw [List.mem_singleton] at held
      have capital := isCapitalName_typeName (shape.path ++ ["Return"])
      rw [← held] at capital
      refine capital.isIdentifier_iff.mpr fun reserved => ?_
      have apart : ∀ word ∈ reservedTypeNames, word.toList.getLast? ≠ some 'n' := by decide
      exact apart _ reserved last

/-- **The key `_` stays the name of its property, and a path may derive a reserved word.** Neither is
an identifier. -/
theorem underscore_and_any_stay :
    (¬ ∀ (fields : List Field) (declared : Struct),
      (Registry.empty.renderStruct fields ["a"] .decode).2.find?
        (Registry.empty.renderStruct fields ["a"] .decode).1 = some (.struct declared) →
      ∀ name ∈ declared.memberNames, IsIdentifier name) ∧
    ¬ ∀ path, path ≠ [] → IsIdentifier (Registry.empty.renderStruct [] path .decode).1 := by
  constructor
  · intro always
    have underscore := always [⟨"_", false, false, .ofShape .string⟩]
      ⟨"A", .decode, [⟨"_", "_", .string, none, none⟩]⟩ (by decide) "_" (by decide)
    revert underscore
    decide
  · intro always
    have reserved := always ["any"] (by decide)
    revert reserved
    decide

end SwiftBindings.Swift
