/-
**What generated types say about the validators behind them.**

A generated type is read back by following its names through the declarations: a struct to its
properties, an enumeration to its raw values, a marker to its table. `Denotes` is this reading for a
type that is present, `Reads` for one that may be absent, and `ReadsFields` for the properties of a
struct. Reading gives one answer at most (`Reads.unique`), and what it gives survives the registration
of further declarations (`Reads.mono`).

`Shape.erased` is what rendering keeps of a shape. Lost are the leaves of the elements of lists and
mappings, the keys of mappings, identifiers of rows of any table, which are strings, and the reason
why a value is of unknown shape. On the side that reads, a leave for absence and one for null are one
leave. On the side that writes, a field with a leave for absence keeps nothing of one for null, and a
value of unknown shape may always be absent.

**The main statement.** `Registry.answers_read`: whatever is rendered with one registry, in whatever
order and under whatever paths, is read back through the last registry as its erasure.
-/

import Mathlib.Data.List.Forall2
import SwiftBindings.Proofs.Swift.Registry

namespace SwiftBindings

/-! ### What rendering keeps -/

mutual

/-- The shape as far as generated code has it. -/
def Shape.erased (side : Swift.Side) : Shape → Shape
  | .string => .string
  | .number => .number
  | .boolean => .boolean
  | .id none => .string
  | .id (some table) => .id (some table)
  | .array ⟨shape, _, _⟩ => .array (.ofShape (shape.erased side))
  | .record _ ⟨shape, _, _⟩ => .record none (.ofShape (shape.erased side))
  | .object fields => .object (erasedFields side fields)
  | .enumeration values => .enumeration values
  | .any => .any
  | .unknown _ _ => .any

/-- The fields as far as generated code has them, in order. -/
def erasedFields (side : Swift.Side) : List Field → List Field
  | [] => []
  | ⟨name, optional, nullable, ⟨shape, _, _⟩⟩ :: rest =>
    let schema : Validator :=
      ⟨shape.erased side, optional || nullable || (side == .encode && shape.isUntyped), false⟩
    (match side with
      | .decode => ⟨name, schema.optional, false, schema⟩
      | .encode => ⟨name, optional, nullable && !optional, schema⟩) :: erasedFields side rest

end

/-- The validator as far as generated code has it. -/
def Validator.erased (side : Swift.Side) (validator : Validator) : Validator :=
  ⟨validator.shape.erased side,
    validator.admitsAbsence || (side == .encode && validator.shape.isUntyped), false⟩

namespace Swift

/-! ### Reading types -/

/-- How declarations are found by name. -/
abbrev Lookup := String → Option Declaration

/-- The field that a property stands for, given the validator of its type. A property that is
written says when its argument is set; one that is read may be absent where its type may. -/
def Property.fieldWith (property : Property) (schema : Validator) : Field :=
  match property.argument with
  | none => ⟨property.key, schema.optional, false, schema⟩
  | some argument =>
    ⟨property.key, argument.presence == .optional, argument.presence == .nullable, schema⟩

mutual

/-- The shape that a type stands for on a side. -/
inductive Denotes (declared : Lookup) (side : Side) : SwiftType → Shape → Prop where
  | string : Denotes declared side .string .string
  | bool : Denotes declared side .bool .boolean
  | double : Denotes declared side .double .number
  | id {marker table : String} (found : declared marker = some (.marker ⟨marker, table⟩)) :
      Denotes declared side (.id marker) (.id (some table))
  | array {element : SwiftType} {shape : Shape} (inner : Denotes declared side element shape) :
      Denotes declared side (.array element) (.array (.ofShape shape))
  | dictionary {value : SwiftType} {shape : Shape} (inner : Denotes declared side value shape) :
      Denotes declared side (.dictionary value) (.record none (.ofShape shape))
  | enumeration {name : String} {cases : List Case}
      (found : declared name = some (.enumeration ⟨name, cases⟩)) :
      Denotes declared side (.named name) (.enumeration (cases.map Case.rawValue))
  | object {name : String} {properties : List Property} {fields : List Field}
      (found : declared name = some (.struct ⟨name, side, properties⟩))
      (inner : ReadsFields declared side properties fields) :
      Denotes declared side (.named name) (.object fields)
  | jsonValue (reads : side = .decode) : Denotes declared side .jsonValue .any
  | encodable (writes : side = .encode) : Denotes declared side .encodable .any

/-- The validator that a type stands for on a side. -/
inductive Reads (declared : Lookup) (side : Side) : SwiftType → Validator → Prop where
  | present {type : SwiftType} {shape : Shape} (inner : Denotes declared side type shape)
      (required : type.admitsAbsence = false) : Reads declared side type (.ofShape shape)
  | absent {type : SwiftType} {shape : Shape} (inner : Denotes declared side type shape) :
      Reads declared side type.orAbsent ⟨shape, true, false⟩

/-- The fields that properties stand for on a side, in order. -/
inductive ReadsFields (declared : Lookup) (side : Side) : List Property → List Field → Prop where
  | nil : ReadsFields declared side [] []
  | cons {property : Property} {schema : Validator} {properties : List Property}
      {fields : List Field} (first : Reads declared side property.type schema)
      (rest : ReadsFields declared side properties fields) :
      ReadsFields declared side (property :: properties) (property.fieldWith schema :: fields)

end

/-! ### Reading is kept and gives one answer -/

section Reading

variable {declared more : Lookup} {side : Side}

mutual

/-- Reading is kept when more declarations are found. -/
theorem Denotes.mono
    (kept : ∀ name declaration, declared name = some declaration → more name = some declaration) :
    ∀ {type : SwiftType} {shape : Shape}, Denotes declared side type shape →
      Denotes more side type shape
  | _, _, .string => .string
  | _, _, .bool => .bool
  | _, _, .double => .double
  | _, _, .id found => .id (kept _ _ found)
  | _, _, .array inner => .array (inner.mono kept)
  | _, _, .dictionary inner => .dictionary (inner.mono kept)
  | _, _, .enumeration found => .enumeration (kept _ _ found)
  | _, _, .object found inner => .object (kept _ _ found) (inner.mono kept)
  | _, _, .jsonValue reads => .jsonValue reads
  | _, _, .encodable writes => .encodable writes

theorem Reads.mono
    (kept : ∀ name declaration, declared name = some declaration → more name = some declaration) :
    ∀ {type : SwiftType} {validator : Validator}, Reads declared side type validator →
      Reads more side type validator
  | _, _, .present inner required => .present (inner.mono kept) required
  | _, _, .absent inner => .absent (inner.mono kept)

theorem ReadsFields.mono
    (kept : ∀ name declaration, declared name = some declaration → more name = some declaration) :
    ∀ {properties : List Property} {fields : List Field},
      ReadsFields declared side properties fields → ReadsFields more side properties fields
  | _, _, .nil => .nil
  | _, _, .cons first rest => .cons (first.mono kept) (rest.mono kept)

end

/-- A type that stands for a shape is no optional one. -/
theorem Denotes.ne_optional {type wrapped : SwiftType} {shape : Shape}
    (denotes : Denotes declared side type shape) : type ≠ .optional wrapped := by
  intro same
  cases denotes <;> cases same

/-- Types that stand for shapes are told by their forms that may be absent. -/
theorem Denotes.orAbsent_inj {first second : SwiftType} {shape other : Shape}
    (left : Denotes declared side first shape) (right : Denotes declared side second other)
    (same : first.orAbsent = second.orAbsent) : first = second := by
  rw [SwiftType.orAbsent, SwiftType.orAbsent] at same
  split at same <;> split at same
  · exact same
  · exact absurd same left.ne_optional
  · exact absurd same.symm right.ne_optional
  · exact SwiftType.optional.inj same

theorem SwiftType.admitsAbsence_orAbsent (type : SwiftType) : type.orAbsent.admitsAbsence = true := by
  cases type <;> rfl

/-- A type that is read is one that is present, or the form of one that may be absent. -/
theorem Reads.forms {type : SwiftType} {validator : Validator}
    (reads : Reads declared side type validator) :
    (∃ shape, Denotes declared side type shape ∧ type.admitsAbsence = false ∧
        validator = .ofShape shape) ∨
      ∃ base shape, Denotes declared side base shape ∧ type = base.orAbsent ∧
        validator = ⟨shape, true, false⟩ := by
  cases reads with
  | present inner required => exact .inl ⟨_, inner, required, rfl⟩
  | absent inner => exact .inr ⟨_, _, inner, rfl, rfl⟩

mutual

/-- A type stands for one shape at most. -/
theorem Denotes.unique : ∀ {type : SwiftType} {first second : Shape},
    Denotes declared side type first → Denotes declared side type second → first = second
  | _, _, _, .string, .string => rfl
  | _, _, _, .bool, .bool => rfl
  | _, _, _, .double, .double => rfl
  | _, _, _, .id found, .id other => by
    rw [found] at other
    cases other
    rfl
  | _, _, _, .array inner, .array other => by rw [inner.unique other]
  | _, _, _, .dictionary inner, .dictionary other => by rw [inner.unique other]
  | _, _, _, .enumeration found, .enumeration other => by
    rw [found] at other
    cases other
    rfl
  | _, _, _, .enumeration found, .object other _ => by
    rw [found] at other
    cases other
  | _, _, _, .object found _, .enumeration other => by
    rw [found] at other
    cases other
  | _, _, _, .object found inner, .object other again => by
    rw [found] at other
    cases other
    rw [inner.unique again]
  | _, _, _, .jsonValue _, .jsonValue _ => rfl
  | _, _, _, .encodable _, .encodable _ => rfl

theorem Reads.unique : ∀ {type : SwiftType} {first second : Validator},
    Reads declared side type first → Reads declared side type second → first = second
  | _, _, _, .present inner required, right => by
    rcases right.forms with ⟨shape, other, _, rfl⟩ | ⟨base, shape, other, rfl, rfl⟩
    · rw [inner.unique other]
    · rw [SwiftType.admitsAbsence_orAbsent] at required
      cases required
  | _, _, _, .absent inner, right => by
    rcases right.forms with ⟨shape, other, required, rfl⟩ | ⟨base, shape, other, same, rfl⟩
    · rw [SwiftType.admitsAbsence_orAbsent] at required
      cases required
    · cases inner.orAbsent_inj other same
      rw [inner.unique other]

theorem ReadsFields.unique : ∀ {properties : List Property} {first second : List Field},
    ReadsFields declared side properties first → ReadsFields declared side properties second →
      first = second
  | _, _, _, .nil, .nil => rfl
  | _, _, _, .cons first rest, .cons other more => by rw [first.unique other, rest.unique more]

end

/-- A type is read as a validator and as nothing else. -/
def ReadsAs (declared : Lookup) (side : Side) (type : SwiftType) (validator : Validator) : Prop :=
  ∀ found, Reads declared side type found ↔ found = validator

/-- Where a type is read as a validator, it is read as nothing else. -/
theorem readsAs_iff {type : SwiftType} {validator : Validator} :
    ReadsAs declared side type validator ↔ Reads declared side type validator := by
  constructor
  · intro only
    exact (only validator).mpr rfl
  · intro reads found
    constructor
    · exact fun other => other.unique reads
    · rintro rfl
      exact reads

theorem ReadsAs.mono {type : SwiftType} {validator : Validator}
    (reads : ReadsAs declared side type validator)
    (kept : ∀ name declaration, declared name = some declaration → more name = some declaration) :
    ReadsAs more side type validator :=
  readsAs_iff.mpr ((readsAs_iff.mp reads).mono kept)

end Reading

/-! ### Rendering a validator -/

/-- The cases of an enumeration have its values, in order. -/
theorem Case.map_rawValue_ofValues (values : List String) :
    (Case.ofValues values).map Case.rawValue = values := by
  have general : ∀ (rest : List String) (cases : List Case),
      (rest.foldl (fun (cases : List Case) value =>
        cases ++ [⟨freshName (caseName value) (cases.map Case.name), value⟩]) cases).map
          Case.rawValue = cases.map Case.rawValue ++ rest := by
    intro rest
    induction rest with
    | nil => intro cases; rw [List.foldl_nil, List.append_nil]
    | cons value rest ih =>
      intro cases
      rw [List.foldl_cons, ih, List.map_append, List.map_singleton, List.append_assoc,
        List.singleton_append]
  exact general values []

/-- Only a value of unknown shape that is written has a type that may be absent by itself. -/
theorem Denotes.admitsAbsence {declared : Lookup} {side : Side} {type : SwiftType} {shape : Shape}
    (denotes : Denotes declared side type shape) :
    type.admitsAbsence = (side == .encode && shape.isUntyped) := by
  cases denotes with
  | jsonValue reads =>
    subst reads
    rfl
  | encodable writes =>
    subst writes
    rfl
  | _ => exact (Bool.and_false _).symm

theorem isUntyped_erased (side : Side) (shape : Shape) :
    (shape.erased side).isUntyped = shape.isUntyped := by
  cases shape with
  | id table => cases table <;> rfl
  | array element =>
    obtain ⟨shape, _, _⟩ := element
    rw [Shape.erased, Shape.isUntyped, Shape.isUntyped]
    all_goals simp
  | record key value =>
    obtain ⟨shape, _, _⟩ := value
    rw [Shape.erased, Shape.isUntyped, Shape.isUntyped]
    all_goals simp
  | _ => rfl

/-- The type of a shape with a leave that is asked for is read as the erased shape with it. -/
theorem Denotes.reads {declared : Lookup} {side : Side} {type : SwiftType} {shape : Shape}
    (denotes : Denotes declared side type (shape.erased side)) (absence : Bool) :
    Reads declared side (if absence then type.orAbsent else type)
      ⟨shape.erased side, absence || (side == .encode && shape.isUntyped), false⟩ := by
  have leave := denotes.admitsAbsence
  rw [isUntyped_erased] at leave
  cases absence with
  | true => exact .absent denotes
  | false =>
    rw [if_neg Bool.false_ne_true, Bool.false_or, ← leave]
    cases own : type.admitsAbsence with
    | true =>
      have same : type.orAbsent = type := by rw [SwiftType.orAbsent, if_pos own]
      have absent := Reads.absent denotes
      rwa [same] at absent
    | false => exact .present denotes own

/-- The property of a field is read as the erased field. -/
theorem Property.ofField_reads {declared : Lookup} (taken : List String) {side : Side}
    {name : String} {optional nullable absent null : Bool} {type : SwiftType} {shape : Shape}
    (denotes : Denotes declared side type (shape.erased side)) {properties : List Property}
    {fields : List Field} (rest : ReadsFields declared side properties (erasedFields side fields)) :
    ReadsFields declared side
      (Property.ofField taken ⟨name, optional, nullable, ⟨shape, absent, null⟩⟩ type side ::
        properties)
      (erasedFields side (⟨name, optional, nullable, ⟨shape, absent, null⟩⟩ :: fields)) := by
  have first := denotes.reads (optional || nullable)
  have whole : ReadsFields declared side
      (Property.ofField taken ⟨name, optional, nullable, ⟨shape, absent, null⟩⟩ type side ::
        properties) (_ :: erasedFields side fields) := .cons first rest
  cases side with
  | decode =>
    rw [erasedFields]
    exact whole
  | encode =>
    rw [erasedFields]
    cases optional <;> cases nullable <;> exact whole

mutual

/-- **Rendering a shape registers all that its type refers to, and the type is read as the erased
shape.** -/
theorem Registry.renderShape_reads (path : List String) (side : Side) (registry : Registry) :
    ∀ shape : Shape, registry.GrowsTo (registry.renderShape path side shape).2 ∧
      Denotes (registry.renderShape path side shape).2.find? side
        (registry.renderShape path side shape).1 (shape.erased side)
  | .string => ⟨.refl _, .string⟩
  | .number => ⟨.refl _, .double⟩
  | .boolean => ⟨.refl _, .bool⟩
  | .id none => ⟨.refl _, .string⟩
  | .id (some table) => by
    obtain ⟨_, found, grows⟩ :=
      registry.register_spec (.marker ⟨typeName [table] ++ "Table", table⟩)
    exact ⟨grows, .id found⟩
  | .array ⟨shape, _, _⟩ => by
    obtain ⟨grows, inner⟩ := Registry.renderShape_reads (path ++ ["Item"]) side registry shape
    rw [Registry.renderShape, Shape.erased]
    exact ⟨grows, .array inner⟩
  | .record _ ⟨shape, _, _⟩ => by
    obtain ⟨grows, inner⟩ := Registry.renderShape_reads (path ++ ["Value"]) side registry shape
    rw [Registry.renderShape, Shape.erased]
    exact ⟨grows, .dictionary inner⟩
  | .object fields => by
    obtain ⟨first, inner⟩ :=
      Registry.renderProperties_reads path side generatedMembers registry fields
    obtain ⟨_, found, second⟩ := Registry.register_spec
      (registry.renderProperties path side generatedMembers fields).2
      (.struct ⟨typeName path, side,
        (registry.renderProperties path side generatedMembers fields).1⟩)
    rw [Registry.renderShape, Shape.erased]
    exact ⟨first.trans second, .object found (inner.mono second.within)⟩
  | .enumeration values => by
    obtain ⟨_, found, grows⟩ :=
      registry.register_spec (.enumeration ⟨typeName path ++ "Enum", Case.ofValues values⟩)
    refine ⟨grows, ?_⟩
    have reads : Denotes _ side _ _ := .enumeration found
    rw [Case.map_rawValue_ofValues] at reads
    exact reads
  | .any => by
    cases side with
    | decode => exact ⟨⟨fun _ _ found => found, id⟩, .jsonValue rfl⟩
    | encode => exact ⟨.refl _, .encodable rfl⟩
  | .unknown _ _ => by
    cases side with
    | decode => exact ⟨⟨fun _ _ found => found, id⟩, .jsonValue rfl⟩
    | encode => exact ⟨.refl _, .encodable rfl⟩

/-- Rendering fields registers all that their properties refer to, and the properties are read as
the erased fields. -/
theorem Registry.renderProperties_reads (path : List String) (side : Side) (taken : List String)
    (registry : Registry) : ∀ fields : List Field,
      registry.GrowsTo (registry.renderProperties path side taken fields).2 ∧
        ReadsFields (registry.renderProperties path side taken fields).2.find? side
          (registry.renderProperties path side taken fields).1 (erasedFields side fields)
  | [] => ⟨.refl _, .nil⟩
  | ⟨name, optional, nullable, ⟨shape, absent, null⟩⟩ :: rest => by
    obtain ⟨first, inner⟩ := Registry.renderShape_reads (path ++ [name]) side registry shape
    obtain ⟨second, others⟩ := Registry.renderProperties_reads path side
      (taken ++ [(Property.ofField taken ⟨name, optional, nullable, ⟨shape, absent, null⟩⟩
        (registry.renderShape (path ++ [name]) side shape).1 side).name])
      (registry.renderShape (path ++ [name]) side shape).2 rest
    rw [Registry.renderProperties]
    exact ⟨first.trans second, Property.ofField_reads taken (inner.mono second.within) others⟩

end

/-- The type of a rendered validator is read as the erased validator. -/
theorem Registry.render_reads (registry : Registry) (validator : Validator) (path : List String)
    (side : Side) :
    registry.GrowsTo (registry.render validator path side).2 ∧
      Reads (registry.render validator path side).2.find? side
        (registry.render validator path side).1.type (validator.erased side) := by
  obtain ⟨grows, denotes⟩ := registry.renderShape_reads path side validator.shape
  exact ⟨grows, denotes.reads validator.admitsAbsence⟩

/-- A rendered struct is named after its path, and its name is read as the erased fields. -/
theorem Registry.renderStruct_reads (registry : Registry) (fields : List Field)
    (path : List String) (side : Side) :
    (∃ attempt, (registry.renderStruct fields path side).1 =
        candidateName (typeName path) attempt) ∧
      registry.GrowsTo (registry.renderStruct fields path side).2 ∧
      Reads (registry.renderStruct fields path side).2.find? side
        (.named (registry.renderStruct fields path side).1)
        (.ofShape (.object (erasedFields side fields))) := by
  obtain ⟨first, inner⟩ := registry.renderProperties_reads path side generatedMembers fields
  rw [Registry.renderStruct]
  generalize registry.renderProperties path side generatedMembers fields = rendered at first inner ⊢
  generalize typeName path = name
  obtain ⟨properties, rendered⟩ := rendered
  obtain ⟨named, found, second⟩ := rendered.register_spec (.struct ⟨name, side, properties⟩)
  exact ⟨named, first.trans second, .present (.object found (inner.mono second.within)) rfl⟩

/-! ### Runs -/

/-- One call of a run that renders with a registry. -/
inductive Request where
  /-- The type of a validator is asked for. -/
  | type (validator : Validator) (path : List String) (side : Side)
  /-- The struct of an object's fields is asked for. -/
  | struct (fields : List Field) (path : List String) (side : Side)

/-- The side that a request renders for. -/
def Request.side : Request → Side
  | .type _ _ side => side
  | .struct _ _ side => side

/-- What rendering keeps of a request. -/
def Request.erasure : Request → Validator
  | .type validator _ side => validator.erased side
  | .struct fields _ side => .ofShape (.object (erasedFields side fields))

/-- The type that answers a request, and the registry with what the type refers to. -/
def Registry.answer (registry : Registry) : Request → SwiftType × Registry
  | .type validator path side =>
    ((registry.render validator path side).1.type, (registry.render validator path side).2)
  | .struct fields path side =>
    (.named (registry.renderStruct fields path side).1, (registry.renderStruct fields path side).2)

/-- The types that answer requests in turn, and the last registry. -/
def Registry.answers (registry : Registry) : List Request → List SwiftType × Registry
  | [] => ([], registry)
  | request :: rest =>
    let (type, answered) := registry.answer request
    let (types, complete) := answered.answers rest
    (type :: types, complete)

/-- One answer is read as the erasure of its request. -/
theorem Registry.answer_reads (registry : Registry) (request : Request) :
    registry.GrowsTo (registry.answer request).2 ∧
      Reads (registry.answer request).2.find? request.side (registry.answer request).1
        request.erasure := by
  cases request with
  | type validator path side => exact registry.render_reads validator path side
  | struct fields path side => exact (registry.renderStruct_reads fields path side).2

/-- **Every answer of a run is read through the last registry as the erasure of its request**: what
later requests register takes nothing away from it. -/
theorem Registry.answers_read (registry : Registry) (requests : List Request) :
    registry.GrowsTo (registry.answers requests).2 ∧
      List.Forall₂ (fun request type =>
          Reads (registry.answers requests).2.find? request.side type request.erasure)
        requests (registry.answers requests).1 := by
  induction requests generalizing registry with
  | nil => exact ⟨.refl registry, .nil⟩
  | cons request rest ih =>
    obtain ⟨first, reads⟩ := registry.answer_reads request
    obtain ⟨second, others⟩ := ih (registry.answer request).2
    exact ⟨first.trans second, .cons (reads.mono second.within) others⟩

end Swift

end SwiftBindings
