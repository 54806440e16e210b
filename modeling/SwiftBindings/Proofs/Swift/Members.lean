/-
**The members of a declaration.**

A struct keeps its properties, and an enumeration its cases, under fresh names in turn
(`Registry.names_renderProperties`, `Case.names_ofValues`). So no two of them have one name, and none
has the name of a member that every struct declares for itself.

Names are told apart with their backticks, though backticks are no part of an identifier. **The main
statement** is what follows from this, `members_distinct_iff`: two members are one identifier exactly
where a reserved word is the name of several members and the text of one that got a number is the name
of another. `members_clash` has three keys of which the first two are such members and the third the
other.
-/

import SwiftBindings.Proofs.Swift.FreshNames
import SwiftBindings.Proofs.Swift.Registry

namespace SwiftBindings.Swift

/-! ### Names of members -/

/-- The names of a struct's properties. -/
def Struct.memberNames (declared : Struct) : List String :=
  declared.properties.map Property.name

/-- The names of an enumeration's cases. -/
def Enumeration.memberNames (declared : Enumeration) : List String :=
  declared.cases.map Case.name

/-- The names that the properties for fields start from. -/
def propertyBases (fields : List Field) : List String :=
  fields.map fun field => propertyName field.name

/-- **Properties have fresh names**, in the order of their fields. -/
theorem Registry.names_renderProperties (path : List String) (side : Side) (taken : List String)
    (registry : Registry) (fields : List Field) :
    (registry.renderProperties path side taken fields).1.map Property.name =
      freshNames taken (propertyBases fields) := by
  induction fields generalizing taken registry with
  | nil => rfl
  | cons field rest ih =>
    obtain ⟨name, optional, nullable, shape, absent, null⟩ := field
    rw [Registry.renderProperties, propertyBases, List.map_cons, List.map_cons, freshNames]
    exact congrArg (_ :: ·) (ih _ _)

/-- **Cases have fresh names**, in the order of their values. -/
theorem Case.names_ofValues (values : List String) :
    (Case.ofValues values).map Case.name = freshNames [] (values.map caseName) := by
  have general : ∀ (rest : List String) (cases : List Case),
      (rest.foldl (fun (cases : List Case) value =>
        cases ++ [⟨freshName (caseName value) (cases.map Case.name), value⟩]) cases).map Case.name =
          cases.map Case.name ++ freshNames (cases.map Case.name) (rest.map caseName) := by
    intro rest
    induction rest with
    | nil => intro cases; rw [List.foldl_nil, List.map_nil, freshNames, List.append_nil]
    | cons value rest ih =>
      intro cases
      rw [List.foldl_cons, ih, List.map_append, List.map_singleton, List.map_cons, freshNames,
        List.append_assoc, List.singleton_append]
  exact general values []

theorem isMemberBase_of_mem_propertyBases {fields : List Field} :
    ∀ base ∈ propertyBases fields, IsMemberBase base := by
  intro base member
  obtain ⟨field, _, rfl⟩ := List.mem_map.mp member
  exact isMemberBase_propertyName field.name

theorem isMemberBase_of_mem_cases {values : List String} :
    ∀ base ∈ values.map caseName, IsMemberBase base := by
  intro base member
  obtain ⟨value, _, rfl⟩ := List.mem_map.mp member
  exact isMemberBase_caseName value

/-- No member that every struct declares for itself stands in backticks. -/
theorem inBackticks_not_mem_generatedMembers (text : String) :
    inBackticks text ∉ generatedMembers := by
  have plain : ∀ name ∈ generatedMembers, isPlainIdentifier name = true := by decide
  exact fun member => ne_inBackticks_of_plain (plain _ member) text rfl

/-- **No property is a generated member**, with its backticks or without. -/
theorem withoutBackticks_not_mem_generatedMembers {bases : List String}
    (members : ∀ base ∈ bases, IsMemberBase base) {name : String}
    (member : name ∈ freshNames generatedMembers bases) : withoutBackticks name ∉ generatedMembers := by
  obtain ⟨word, text, plain, _, named⟩ := exists_namedAfter members member
  rw [named.withoutBackticks plain]
  intro generated
  by_cases reserved : word ∈ reservedWords
  · -- The generated members have no digits, and are no reserved words.
    have apart : ∀ name ∈ generatedMembers, ∀ word ∈ reservedWords,
        name.toList.takeWhile (fun c => !c.isDigit) ≠ word.toList := by decide
    exact apart text generated word reserved (named.stem reserved)
  · have bare := named.2
    rw [spelled, if_neg reserved] at bare
    exact (nodup_freshNames generatedMembers bases).2 name member (bare ▸ generated)

/-! ### Registered structs and enumerations -/

section Registered

variable (registry : Registry)

/-- A rendered struct is found under its name, and its properties have fresh names. -/
theorem Registry.renderStruct_names (fields : List Field) (path : List String) (side : Side) :
    ∃ declared, (registry.renderStruct fields path side).2.find?
        (registry.renderStruct fields path side).1 = some (.struct declared) ∧
      declared.memberNames = freshNames generatedMembers (propertyBases fields) := by
  refine ⟨_, (Registry.register_spec _ _).2.1, ?_⟩
  exact registry.names_renderProperties path side generatedMembers fields

/-- A rendered enumeration is found under its name, and its cases have fresh names. -/
theorem Registry.renderEnumeration_names (values path : List String) (side : Side) :
    ∃ name declared, (registry.renderShape path side (.enumeration values)).1 = .named name ∧
      (registry.renderShape path side (.enumeration values)).2.find? name =
        some (.enumeration declared) ∧
      declared.memberNames = freshNames [] (values.map caseName) :=
  ⟨_, _, rfl, (Registry.register_spec _ _).2.1, Case.names_ofValues values⟩

end Registered

/-! ### Distinct members -/

/-- **Which members are one identifier.** In every registry, the properties of a rendered struct have
different names, none of them that of a generated member, and so have the cases of a rendered
enumeration. Without backticks they are different exactly where no number of a reserved word is the
name of another member. -/
theorem members_distinct_iff (registry : Registry) (path : List String) (side : Side) :
    (∀ fields : List Field, ∃ declared, (registry.renderStruct fields path side).2.find?
        (registry.renderStruct fields path side).1 = some (.struct declared) ∧
      declared.memberNames.Nodup ∧
      (∀ name ∈ declared.memberNames, withoutBackticks name ∉ generatedMembers) ∧
      ((declared.memberNames.map withoutBackticks).Nodup ↔
        ¬NumbersClash (propertyBases fields) declared.memberNames)) ∧
    (∀ values : List String, ∃ name declared,
      (registry.renderShape path side (.enumeration values)).1 = .named name ∧
      (registry.renderShape path side (.enumeration values)).2.find? name =
        some (.enumeration declared) ∧
      declared.memberNames.Nodup ∧
      ((declared.memberNames.map withoutBackticks).Nodup ↔
        ¬NumbersClash (values.map caseName) declared.memberNames)) := by
  constructor
  · intro fields
    obtain ⟨declared, found, names⟩ := registry.renderStruct_names fields path side
    have members : ∀ base ∈ propertyBases fields, IsMemberBase base :=
      isMemberBase_of_mem_propertyBases
    refine ⟨declared, found, ?_⟩
    rw [names]
    exact ⟨(nodup_freshNames _ _).1, fun _ => withoutBackticks_not_mem_generatedMembers members,
      nodup_texts_iff inBackticks_not_mem_generatedMembers members⟩
  · intro values
    obtain ⟨name, declared, typed, found, names⟩ := registry.renderEnumeration_names values path side
    refine ⟨name, declared, typed, found, ?_⟩
    rw [names]
    exact ⟨(nodup_freshNames _ _).1,
      nodup_texts_iff (fun _ => List.not_mem_nil) isMemberBase_of_mem_cases⟩

/-- **A reserved word for two members may take the name of a third.** The second of them is numbered
inside its backticks, which sets it apart from the third only in writing. -/
theorem members_clash :
    (¬ ∀ (fields : List Field) (declared : Struct),
      (Registry.empty.renderStruct fields ["a"] .decode).2.find?
        (Registry.empty.renderStruct fields ["a"] .decode).1 = some (.struct declared) →
      (declared.memberNames.map withoutBackticks).Nodup) ∧
    ¬ ∀ values : List String, values.Nodup → ∀ name declared,
      (Registry.empty.renderShape ["a"] .decode (.enumeration values)).2.find? name =
        some (.enumeration declared) →
      (declared.memberNames.map withoutBackticks).Nodup := by
  constructor
  · intro always
    have repeated := always [⟨"default", false, false, .ofShape .string⟩,
      ⟨"-default", false, false, .ofShape .string⟩,
      ⟨"default2", false, false, .ofShape .string⟩]
      ⟨"A", .decode, [⟨"\x60default\x60", "default", .string, none, none⟩,
        ⟨"\x60default2\x60", "-default", .string, none, none⟩,
        ⟨"default2", "default2", .string, none, none⟩]⟩ (by decide)
    revert repeated
    decide
  · intro always
    have repeated := always ["default", "-default", "default2"] (by decide) "AEnum"
      ⟨"AEnum", [⟨"\x60default\x60", "default"⟩, ⟨"\x60default2\x60", "-default"⟩,
        ⟨"default2", "default2"⟩]⟩ (by decide)
    revert repeated
    decide

end SwiftBindings.Swift
