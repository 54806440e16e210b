/-
**Arguments fit the types of their properties.**

The type of a property and the way its value becomes an argument come from one shape, by two recursions
of their own, and the type says by name only whether a value is a row's identifier, one of an
enumeration's cases or a struct. `SwiftType.encoding?` is the way that the declarations behind the names
ask for. `Property.Fits` says of a property that it goes that way, that its type is one that can be
unwrapped exactly where its argument is not always set, and that a number which is read has the wrapper
of its type.

**The main statement.** `properties_fit`: after a run of renderings every property of every registered
struct fits the field that it was rendered from, and the declarations of the run.
-/

import SwiftBindings.Proofs.Swift.Origins

namespace SwiftBindings.Swift

/-! ### Types of arguments -/

/-- The type of a value that is there: the outer optional type is taken off. -/
def SwiftType.present : SwiftType → SwiftType
  | .optional wrapped => wrapped
  | type => type

/-- How a value of the type becomes an argument, where declarations are found by name. -/
def SwiftType.encoding? (declared : Lookup) : SwiftType → Option Encoding
  | .string | .bool | .double | .encodable => some .direct
  | .id name =>
    match declared name with
    | some (.marker _) => some .rawValue
    | _ => none
  | .named name =>
    match declared name with
    | some (.enumeration _) => some .rawValue
    | some (.struct ⟨_, .encode, _⟩) => some .nested
    | _ => none
  | .array element => (element.encoding? declared).map .array
  | .dictionary value => (value.encoding? declared).map .record
  | .optional _ | .jsonValue => none

/-- The argument of a property fits its type and its field. -/
structure Argument.Fits (declared : Lookup) (field : Field) (type : SwiftType) (argument : Argument) :
    Prop where
  /-- The value becomes an argument as its type asks for. -/
  encoding : type.present.encoding? declared = some argument.encoding
  /-- The argument is always set exactly where the field may neither be absent nor null. -/
  required : argument.presence = .required ↔ field.optional = false ∧ field.nullable = false
  /-- A value that is always set is never absent, unless it is of unknown shape. -/
  present : argument.presence = .required → type.admitsAbsence = true → type = .encodable
  /-- A value that is not always set can be unwrapped. -/
  unwraps : argument.presence ≠ .required → type.admitsAbsence = true

/-- A property fits the field that it stands for, where declarations are found by name. -/
def Property.Fits (declared : Lookup) : Side → Field → Property → Prop
  | .encode, field, property =>
    property.wrapper = none ∧
      ∃ argument, property.argument = some argument ∧ argument.Fits declared field property.type
  | .decode, _, property =>
    property.argument = none ∧
      (property.wrapper = some .convexFloat ↔ property.type = .double) ∧
      (property.wrapper = some .optionalConvexFloat ↔ property.type = .optional .double)

/-! ### Fitting encodings -/

section Fits

variable {declared : Lookup}

/-- **The type of a shape asks for the encoding of the shape.** -/
theorem Denotes.encoding? : ∀ {shape : Shape} {type : SwiftType},
    Denotes declared .encode type (shape.erased .encode) →
      type.encoding? declared = some (Encoding.ofShape shape)
  | .string, _, denotes | .number, _, denotes | .boolean, _, denotes | .id none, _, denotes
  | .any, _, denotes | .unknown _ _, _, denotes => by
    cases denotes <;> first | rfl | contradiction
  | .id (some table), _, denotes => by
    cases denotes with
    | id found => rw [SwiftType.encoding?, found, Encoding.ofShape]
  | .array ⟨shape, _, _⟩, _, denotes => by
    rw [Shape.erased] at denotes
    cases denotes with
    | array inner => rw [SwiftType.encoding?, inner.encoding?, Option.map_some, Encoding.ofShape]
  | .record _ ⟨shape, _, _⟩, _, denotes => by
    rw [Shape.erased] at denotes
    cases denotes with
    | dictionary inner =>
      rw [SwiftType.encoding?, inner.encoding?, Option.map_some, Encoding.ofShape]
  | .object fields, _, denotes => by
    rw [Shape.erased] at denotes
    cases denotes with
    | object found _ => rw [SwiftType.encoding?, found, Encoding.ofShape]
  | .enumeration values, _, denotes => by
    rw [Shape.erased] at denotes
    generalize same : Shape.enumeration values = erased at denotes
    cases denotes with
    | enumeration found => rw [SwiftType.encoding?, found, Encoding.ofShape]
    | _ => cases same

/-- Numbers alone have the type of numbers. -/
theorem Denotes.eq_double_iff {side : Side} {shape : Shape} {type : SwiftType}
    (denotes : Denotes declared side type (shape.erased side)) :
    type = .double ↔ shape = .number := by
  constructor
  · rintro rfl
    generalize same : shape.erased side = erased at denotes
    cases denotes
    cases shape with
    | number => rfl
    | id table => cases table <;> cases same
    | array element => cases element; cases same
    | record key value => cases value; cases same
    | _ => cases same
  · rintro rfl
    cases denotes
    rfl

/-- The form of a type that may be absent is unwrapped to the type. -/
theorem SwiftType.present_orAbsent {type : SwiftType} (bare : ∀ wrapped, type ≠ .optional wrapped) :
    type.orAbsent.present = type := by
  cases type with
  | optional wrapped => exact absurd rfl (bare wrapped)
  | _ => rfl

theorem SwiftType.present_of_ne {type : SwiftType} (bare : ∀ wrapped, type ≠ .optional wrapped) :
    type.present = type := by
  cases type with
  | optional wrapped => exact absurd rfl (bare wrapped)
  | _ => rfl

theorem SwiftType.eq_encodable {type : SwiftType} (bare : ∀ wrapped, type ≠ .optional wrapped)
    (absence : type.admitsAbsence = true) : type = .encodable := by
  cases type with
  | optional wrapped => exact absurd rfl (bare wrapped)
  | encodable => rfl
  | _ => cases absence

theorem Field.admitsAbsence_eq_false {field : Field} :
    field.admitsAbsence = false ↔ field.optional = false ∧ field.nullable = false := by
  rw [Field.admitsAbsence, Bool.or_eq_false_iff]

/-- An argument is always set exactly where its field admits no absence. -/
theorem Presence.ofField_eq_required {field : Field} :
    Presence.ofField field = .required ↔ field.admitsAbsence = false := by
  rw [Presence.ofField, Field.admitsAbsence_eq_false]
  cases field.optional <;> cases field.nullable <;> simp

/-- Only numbers that are read have a wrapper. -/
theorem Wrapper.ofShape?_of_ne {shape : Shape} (other : shape ≠ .number) (absence : Bool) (side : Side) :
    Wrapper.ofShape? shape absence side = none := by
  cases shape with
  | number => exact absurd rfl other
  | _ => rfl

/-- **The property of a field fits it**, where its type stands for the field's shape. -/
theorem Property.fits_ofField (taken : List String) {side : Side} {field : Field} {type : SwiftType}
    (denotes : Denotes declared side type (field.schema.shape.erased side)) :
    (Property.ofField taken field type side).Fits declared side field := by
  have bare : ∀ wrapped, type ≠ .optional wrapped := fun wrapped => denotes.ne_optional
  have own : (Property.ofField taken field type side).type =
      if field.admitsAbsence then type.orAbsent else type := rfl
  cases side with
  | encode =>
    refine ⟨?_, ⟨.ofShape field.schema.shape, .ofField field⟩, rfl, ?_⟩
    · show Wrapper.ofShape? field.schema.shape field.admitsAbsence .encode = none
      cases field.schema.shape <;> rfl
    rw [own]
    cases absence : field.admitsAbsence with
    | true =>
      have optional : Presence.ofField field ≠ .required := by
        rw [ne_eq, Presence.ofField_eq_required, absence]
        exact Bool.noConfusion
      refine ⟨?_, ?_, fun required => absurd required optional, fun _ => ?_⟩
      · rw [if_pos rfl, SwiftType.present_orAbsent bare]
        exact denotes.encoding?
      · rw [Presence.ofField_eq_required, Field.admitsAbsence_eq_false]
      · exact SwiftType.admitsAbsence_orAbsent type
    | false =>
      have required : Presence.ofField field = .required := Presence.ofField_eq_required.mpr absence
      refine ⟨?_, ?_, fun _ absent => ?_, fun other => absurd required other⟩
      · rw [if_neg Bool.false_ne_true, SwiftType.present_of_ne bare]
        exact denotes.encoding?
      · rw [Presence.ofField_eq_required, Field.admitsAbsence_eq_false]
      · exact SwiftType.eq_encodable bare absent
  | decode =>
    refine ⟨rfl, ?_⟩
    have wrapper : (Property.ofField taken field type .decode).wrapper =
        Wrapper.ofShape? field.schema.shape field.admitsAbsence .decode := rfl
    rw [own, wrapper]
    by_cases number : field.schema.shape = .number
    · have double := denotes.eq_double_iff.mpr number
      subst double
      rw [number]
      cases field.admitsAbsence <;> exact ⟨by decide, by decide⟩
    · have other : type ≠ .double := fun double => number (denotes.eq_double_iff.mp double)
      have missing : ∀ wrapper : Wrapper, none ≠ some wrapper :=
        fun wrapper => (Option.some_ne_none wrapper).symm
      rw [Wrapper.ofShape?_of_ne number]
      cases field.admitsAbsence with
      | true =>
        rw [if_pos rfl, SwiftType.orAbsent]
        split
        · exact ⟨iff_of_false (missing _) other, iff_of_false (missing _) (bare _)⟩
        · refine ⟨iff_of_false (missing _) fun same => ?_, iff_of_false (missing _) fun same => ?_⟩
          · cases same
          · exact other (SwiftType.optional.inj same)
      | false => exact ⟨iff_of_false (missing _) other, iff_of_false (missing _) (bare _)⟩

end Fits

/-! ### Rendered structs -/

/-- **Properties fit their fields.** After a run, every registered struct was rendered from fields, and
its properties fit any fields that it was rendered from, through the declarations of the run. -/
theorem properties_fit (requests : List Request) (declared : Struct)
    (registered : .struct declared ∈ (Registry.empty.answers requests).2.declarations) :
    (∃ fields, declared.RenderedFrom (Registry.empty.answers requests).2 fields) ∧
      ∀ fields, declared.RenderedFrom (Registry.empty.answers requests).2 fields →
        List.Forall₂ (Property.Fits (Registry.empty.answers requests).2.find? declared.side) fields
          declared.properties := by
  refine ⟨Registry.exists_renderedFrom registered, fun fields rendered => ?_⟩
  refine rendered.made.imp ?_
  rintro field _ ⟨taken, type, rfl, denotes⟩
  exact Property.fits_ofField taken denotes

/-- A text, a state that may be null, a list of objects that may be absent, a value of unknown shape. -/
def taskFields : List Field := [
  ⟨"text", false, false, .ofShape .string⟩,
  ⟨"state", false, true, .ofShape (.enumeration ["open", "done"])⟩,
  ⟨"tags", true, false, .ofShape (.array (.ofShape (.object
    [⟨"owner", false, false, .ofShape (.id (some "users"))⟩])))⟩,
  ⟨"extra", false, false, .ofShape .any⟩]

/-- The run that renders them as arguments. -/
def taskRequests : List Request := [.struct taskFields ["tasks", "create", "Args"] .encode]

/-- The struct of those arguments. -/
def taskArguments : Struct where
  name := "TasksCreateArgs"
  side := .encode
  properties := [
    ⟨"text", "text", .string, none, some ⟨.direct, .required⟩⟩,
    ⟨"state", "state", .optional (.named "TasksCreateArgsStateEnum"), none,
      some ⟨.rawValue, .nullable⟩⟩,
    ⟨"tags", "tags", .optional (.array (.named "TasksCreateArgsTagsItem")), none,
      some ⟨.array .nested, .optional⟩⟩,
    ⟨"extra", "extra", .encodable, none, some ⟨.direct, .required⟩⟩]

/-- Its properties fit the fields. -/
theorem taskArguments_fit :
    .struct taskArguments ∈ (Registry.empty.answers taskRequests).2.declarations ∧
      taskArguments.RenderedFrom (Registry.empty.answers taskRequests).2 taskFields ∧
      List.Forall₂ (Property.Fits (Registry.empty.answers taskRequests).2.find? .encode) taskFields
        taskArguments.properties := by
  have registered : .struct taskArguments ∈ (Registry.empty.answers taskRequests).2.declarations := by
    decide
  have rendered : taskArguments.RenderedFrom (Registry.empty.answers taskRequests).2 taskFields :=
    ⟨.empty, ["tasks", "create", "Args"], 0, by decide, by decide,
      (Registry.register_spec _ _).2.2.within⟩
  exact ⟨registered, rendered, (properties_fit taskRequests taskArguments registered).2 _ rendered⟩

end SwiftBindings.Swift
