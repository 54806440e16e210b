/-
**Builders in terms and in types.**

A builder is a validator as both sources can write it: as calls in a table definition
(`Builder.IsWritten`), and as a type in a declaration file (`Builder.type`). It stands for a list of
alternatives; the validator that is read from its calls is the one of these alternatives, in outline
(`validatorTo_outline`).
-/

import SwiftBindings.Declared.Basic
import SwiftBindings.Proofs.FrontEnds.Alternatives
import SwiftBindings.Proofs.Reduction.IdentifierText
import SwiftBindings.Reduction.InheritedMember

namespace SwiftBindings

open Declared Reduction Script

/-! ### Builders -/

/-- A builder without parts. -/
inductive Leaf where
  | string
  | number
  | boolean
  | any
  | null
  /-- One string. -/
  | stringLiteral (value : String)
  /-- One number, by its source text in a type. -/
  | numberLiteral (text : String)
  /-- One truth value. -/
  | booleanLiteral (value : Bool)

mutual

/-- A validator that both sources can write. -/
inductive Builder where
  /-- A validator without parts. -/
  | leaf (leaf : Leaf)
  /-- Identifiers of a table. -/
  | id (table : String)
  /-- Lists. -/
  | array (element : Builder)
  /-- Mappings from strings. -/
  | record (value : Builder)
  /-- Objects. -/
  | object (fields : List FieldBuilder)
  /-- Alternatives. -/
  | union (members : List Builder)
  /-- Values that may be absent. -/
  | optional (inner : Builder)
  /-- Values that may be null. -/
  | nullable (inner : Builder)

/-- A field of an object. -/
structure FieldBuilder where
  /-- Key of the field. -/
  name : String
  /-- Its values. -/
  builder : Builder

end

/-- The literals of the builder can be written in a type. A number has no angle bracket. -/
def Leaf.isAdmissible : Leaf → Bool
  | .numberLiteral text => '<' ∉ text.toList
  | _ => true

mutual

/-- Both sources can write the builder: no object is without fields, no union without members, the
fields of an object have different names that nothing inherits, and the names of tables have no quotes
and no backslashes. -/
def Builder.isAdmissible : Builder → Bool
  | .leaf leaf => leaf.isAdmissible
  | .id table => isLegible table
  | .array element => element.isAdmissible
  | .record value => value.isAdmissible
  | .object fields =>
    !fields.isEmpty && decide (fields.map FieldBuilder.name).Nodup && FieldBuilder.areAdmissible fields
  | .union members => !members.isEmpty && Builder.areAdmissible members
  | .optional inner => inner.isAdmissible
  | .nullable inner => inner.isAdmissible

/-- All builders of the list can be written. -/
def Builder.areAdmissible : List Builder → Bool
  | [] => true
  | builder :: rest => builder.isAdmissible && Builder.areAdmissible rest

/-- All fields of the list can be written. -/
def FieldBuilder.areAdmissible : List FieldBuilder → Bool
  | [] => true
  | ⟨name, builder⟩ :: rest =>
    !isInherited name && builder.isAdmissible && FieldBuilder.areAdmissible rest

end

mutual

/-- How many builders stand within each other. -/
def Builder.depth : Builder → Nat
  | .leaf _ | .id _ => 1
  | .array element => element.depth + 1
  | .record value => value.depth + 1
  | .object fields => FieldBuilder.depths fields + 1
  | .union members => Builder.depths members + 1
  | .optional inner => inner.depth + 1
  | .nullable inner => inner.depth + 1

/-- The greatest depth in the list. -/
def Builder.depths : List Builder → Nat
  | [] => 1
  | builder :: rest => max builder.depth (Builder.depths rest)

/-- The greatest depth of a field in the list. -/
def FieldBuilder.depths : List FieldBuilder → Nat
  | [] => 1
  | ⟨_, builder⟩ :: rest => max builder.depth (FieldBuilder.depths rest)

end

theorem Builder.depth_pos (builder : Builder) : 0 < builder.depth := by
  cases builder <;> (rw [depth]; exact Nat.succ_pos _)

/-! ### Types -/

/-- The type of a builder without parts. -/
def Leaf.type : Leaf → TypeExpr
  | .string => .keyword .string
  | .number => .keyword .number
  | .boolean => .keyword .boolean
  | .any => .keyword .any
  | .null => .keyword .null
  | .stringLiteral value => .stringLiteral value
  | .numberLiteral text => .numberLiteral text
  | .booleanLiteral value => .booleanLiteral value

/-- The structure of this type. -/
def Leaf.kind : Leaf → TypeGraph.Kind
  | .string => .primitive .string
  | .number => .primitive .number
  | .boolean => .primitive .boolean
  | .any => .primitive .any
  | .null => .primitive .null
  | .stringLiteral value => .stringLiteral value
  | .numberLiteral text => .numberLiteral text
  | .booleanLiteral value => .booleanLiteral value

mutual

/-- The type that a declaration file has for a builder. A union of one type is this type. -/
def Builder.type : Builder → TypeExpr
  | .leaf leaf => leaf.type
  | .id table => .reference "Id" [.stringLiteral table]
  | .array element => .reference "Array" [element.type]
  | .record value => .reference "Record" [.keyword .string, value.type]
  | .object fields => .object (FieldBuilder.members fields)
  | .union members =>
    match Builder.types members with
    | [type] => type
    | types => .union types
  | .optional inner => .union [inner.type, .keyword .undefined]
  | .nullable inner => .union [inner.type, .keyword .null]

/-- The types of builders. -/
def Builder.types : List Builder → List TypeExpr
  | [] => []
  | builder :: rest => builder.type :: Builder.types rest

/-- The members of an object type. -/
def FieldBuilder.members : List FieldBuilder → List Member
  | [] => []
  | ⟨name, builder⟩ :: rest => .property name false builder.type :: FieldBuilder.members rest

end

/-! ### Alternatives -/

/-- The one alternative of a builder without parts. -/
def Leaf.alternative : Leaf → Alternative
  | .string => .present .string
  | .number | .numberLiteral _ => .present .number
  | .boolean | .booleanLiteral _ => .present .boolean
  | .any => .present .any
  | .null => .null
  | .stringLiteral value => .present (.enumeration [value])

mutual

/-- The alternatives that a builder stands for. -/
def Builder.alternatives : Builder → List Alternative
  | .leaf leaf => [leaf.alternative]
  | .id table => [.present (.id (some table))]
  | .array element => [.present (.array (.ofAlternatives element.alternatives))]
  | .record value => [.present (.record none (.ofAlternatives value.alternatives))]
  | .object fields => [.present (.object (FieldBuilder.fields fields))]
  | .union members => (Builder.memberAlternatives members).flatten
  | .optional inner => inner.alternatives ++ [.absence]
  | .nullable inner => inner.alternatives ++ [.null]

/-- The alternatives of each builder. -/
def Builder.memberAlternatives : List Builder → List (List Alternative)
  | [] => []
  | builder :: rest => builder.alternatives :: Builder.memberAlternatives rest

/-- The fields that the fields of an object stand for. -/
def FieldBuilder.fields : List FieldBuilder → List Field
  | [] => []
  | ⟨name, builder⟩ :: rest =>
    .declare name (.ofAlternatives builder.alternatives) false :: FieldBuilder.fields rest

end

theorem Leaf.proper (leaf : Leaf) : Alternative.Proper [leaf.alternative] := by
  constructor
  · intro shape member
    cases leaf <;> cases member <;> first | rfl | contradiction
  · refine ⟨leaf.alternative, List.mem_singleton_self _, ?_⟩
    cases leaf <;> rfl

theorem Alternative.proper_present {shape : Shape} (known : shape.isKnown = true) :
    Alternative.Proper [.present shape] where
  known other member := by
    rw [List.mem_singleton.mp member]
    exact known
  inhabited := ⟨_, List.mem_singleton_self _, rfl⟩

theorem Alternative.Proper.append {alternatives : List Alternative}
    (proper : Alternative.Proper alternatives) {alternative : Alternative}
    (without : alternative.shape? = none) : Alternative.Proper (alternatives ++ [alternative]) where
  known shape member := by
    rw [List.filterMap_append, List.filterMap_cons_none without, List.filterMap_nil,
      List.append_nil] at member
    exact proper.known shape member
  inhabited := by
    obtain ⟨other, member, stands⟩ := proper.inhabited
    exact ⟨other, List.mem_append_left _ member, stands⟩

theorem Alternative.proper_flatten {groups : List (List Alternative)} (present : groups ≠ [])
    (proper : ∀ group ∈ groups, Alternative.Proper group) : Alternative.Proper groups.flatten where
  known shape member := by
    obtain ⟨alternative, inside, same⟩ := List.mem_filterMap.mp member
    obtain ⟨group, held, inside⟩ := List.mem_flatten.mp inside
    exact (proper group held).known shape (List.mem_filterMap.mpr ⟨alternative, inside, same⟩)
  inhabited := by
    cases groups with
    | nil => exact absurd rfl present
    | cons group rest =>
      obtain ⟨alternative, member, stands⟩ := (proper group List.mem_cons_self).inhabited
      exact ⟨alternative, List.mem_append_left _ member, stands⟩

mutual

theorem Builder.alternatives_proper : ∀ builder : Builder, builder.isAdmissible = true →
    Alternative.Proper builder.alternatives
  | .leaf one, _ => by
    rw [alternatives]
    exact one.proper
  | .id _, _ | .array _, _ | .record _, _ | .object _, _ => by
    rw [alternatives]
    exact Alternative.proper_present rfl
  | .union members, admissible => by
    rw [isAdmissible, Bool.and_eq_true] at admissible
    rw [alternatives]
    refine Alternative.proper_flatten ?_ (Builder.memberAlternatives_proper members admissible.2)
    cases members with
    | nil => cases admissible.1
    | cons first rest =>
      rw [memberAlternatives]
      exact List.cons_ne_nil _ _
  | .optional inner, admissible => by
    rw [isAdmissible] at admissible
    rw [alternatives]
    exact (inner.alternatives_proper admissible).append rfl
  | .nullable inner, admissible => by
    rw [isAdmissible] at admissible
    rw [alternatives]
    exact (inner.alternatives_proper admissible).append rfl

theorem Builder.memberAlternatives_proper : ∀ members : List Builder,
    Builder.areAdmissible members = true →
      ∀ group ∈ Builder.memberAlternatives members, Alternative.Proper group
  | [], _ => by
    rw [memberAlternatives]
    exact fun _ member => absurd member List.not_mem_nil
  | builder :: rest, admissible => by
    rw [areAdmissible, Bool.and_eq_true] at admissible
    rw [memberAlternatives]
    exact List.forall_mem_cons.mpr ⟨builder.alternatives_proper admissible.1,
      Builder.memberAlternatives_proper rest admissible.2⟩

end

/-! ### Terms -/

/-- The call is one of the builder's name, for a builder without parts. A literal has its argument. -/
def Leaf.IsWritten (env : Environment) (leaf : Leaf) (call : Call) : Prop :=
  match leaf with
  | .string => call.name = some "string"
  | .number => call.name = some "number" ∨ call.name = some "float64"
  | .boolean => call.name = some "boolean"
  | .any => call.name = some "any"
  | .null => call.name = some "null"
  | .stringLiteral value => call.name = some "literal" ∧
    ∃ literal rest, call.arguments = literal :: rest ∧ (env.resolve literal).form = .string value
  | .numberLiteral _ => call.name = some "literal" ∧
    ∃ literal rest, call.arguments = literal :: rest ∧ isNumberLiteral (env.resolve literal) = true
  | .booleanLiteral value => call.name = some "literal" ∧
    ∃ literal rest, call.arguments = literal :: rest ∧ (env.resolve literal).form = .boolean value

mutual

/-- The term stands for the builder's calls. -/
def Builder.IsWritten (env : Environment) : Builder → Term → Prop
  | .leaf leaf, term => ∃ call, (env.resolve term).call? = some call ∧ leaf.IsWritten env call
  | .id table, term => ∃ receiver argument rest,
    (env.resolve term).call? = some ⟨receiver, some "id", argument :: rest⟩ ∧
      env.string? argument = some table
  | .array element, term => ∃ receiver argument rest,
    (env.resolve term).call? = some ⟨receiver, some "array", argument :: rest⟩ ∧
      element.IsWritten env argument
  | .record value, term => ∃ receiver key argument rest,
    (env.resolve term).call? = some ⟨receiver, some "record", key :: argument :: rest⟩ ∧
      (∃ call, (env.resolve key).call? = some call ∧ Leaf.string.IsWritten env call) ∧
      value.IsWritten env argument
  | .object fields, term => ∃ receiver argument rest entries,
    (env.resolve term).call? = some ⟨receiver, some "object", argument :: rest⟩ ∧
      (env.resolve argument).form = .object entries ∧
      FieldBuilder.AreWritten env fields (env.members entries)
  | .union members, term => ∃ receiver arguments,
    (env.resolve term).call? = some ⟨receiver, some "union", arguments⟩ ∧
      Builder.AreWritten env members arguments
  | .optional inner, term => ∃ receiver argument rest,
    (env.resolve term).call? = some ⟨receiver, some "optional", argument :: rest⟩ ∧
      inner.IsWritten env argument
  | .nullable inner, term => ∃ receiver argument rest,
    (env.resolve term).call? = some ⟨receiver, some "nullable", argument :: rest⟩ ∧
      inner.IsWritten env argument

/-- The terms stand for the calls of the builders, one for each. -/
def Builder.AreWritten (env : Environment) : List Builder → List Term → Prop
  | [], terms => terms = []
  | builder :: rest, terms => ∃ term others, terms = term :: others ∧
    builder.IsWritten env term ∧ Builder.AreWritten env rest others

/-- The members stand for the fields, one for each. -/
def FieldBuilder.AreWritten (env : Environment) : List FieldBuilder → Members → Prop
  | [], members => members = []
  | ⟨name, builder⟩ :: rest, members => ∃ term others, members = (name, term) :: others ∧
    builder.IsWritten env term ∧ FieldBuilder.AreWritten env rest others

end

/-! ### Validators of terms -/

section Terms

variable {env : Environment}

/-- The validator of a call is read from the call. -/
theorem validatorTo_succ {fuel : Nat} {term : Term} {call : Call}
    (called : (env.resolve term).call? = some call) :
    validatorTo env (fuel + 1) term =
      validatorOfCall env (validatorTo env fuel) (env.resolve term) call := by
  rw [validatorTo, called]

theorem validatorOfCall_literal {receiver : Option Term} {literal : Term} {shape : Shape}
    (found : literalShape? (env.resolve literal) = some shape) (inner : Term → Validator) (term : Term)
    (rest : List Term) :
    validatorOfCall env inner term ⟨receiver, some "literal", literal :: rest⟩ = .ofShape shape := by
  simp only [validatorOfCall, Option.getD_some, found]

theorem Leaf.validatorOfCall_outline {leaf : Leaf} {call : Call} (written : leaf.IsWritten env call)
    (inner : Term → Validator) (term : Term) :
    (validatorOfCall env inner term call).outline = .ofAlternatives [leaf.alternative] := by
  obtain ⟨receiver, name, arguments⟩ := call
  cases leaf with
  | string | boolean | any | null =>
    cases written
    rfl
  | number => rcases written with ⟨⟨⟩⟩ | ⟨⟨⟩⟩ <;> rfl
  | stringLiteral value =>
    obtain ⟨⟨⟩, literal, rest, rfl, form⟩ := written
    have shape : literalShape? (env.resolve literal) = some (.enumeration [value]) := by
      rw [literalShape?, form]
    rw [validatorOfCall_literal shape]
    rfl
  | booleanLiteral value =>
    obtain ⟨⟨⟩, literal, rest, rfl, form⟩ := written
    have shape : literalShape? (env.resolve literal) = some .boolean := by rw [literalShape?, form]
    rw [validatorOfCall_literal shape]
    rfl
  | numberLiteral text =>
    obtain ⟨⟨⟩, literal, rest, rfl, number⟩ := written
    have shape : literalShape? (env.resolve literal) = some .number := by
      rw [literalShape?, number]
      rw [isNumberLiteral] at number
      split <;> simp_all
    rw [validatorOfCall_literal shape]
    rfl

/-- A call stands for itself. -/
theorem resolve_of_call? {term : Term} {call : Call} (called : term.call? = some call) :
    env.resolve term = term := by
  have last : env.step? term = none := by
    rw [Environment.step?]
    rw [Term.call?] at called
    split at called
    · rename_i form
      rw [form]
    · rename_i form
      rw [form]
    · rename_i form
      rw [form]
    · cases called
  rw [Environment.resolve, maximalSteps, Environment.follow, last]

theorem objectEntries?_of_call? {term argument : Term} {receiver : Option Term} {rest : List Term}
    {entries : List Entry} (called : term.call? = some ⟨receiver, some "object", argument :: rest⟩)
    (form : (env.resolve argument).form = .object entries) :
    env.objectEntries? term = some entries := by
  have other : ∀ entries, term.form ≠ .object entries := by
    intro entries same
    rw [Term.call?, same] at called
    cases called
  rw [Environment.objectEntries?, resolve_of_call? called]
  split
  · rename_i same
    exact absurd same (other _)
  · rename_i found _
    rw [called] at found
    cases found
    rw [form]
  · rename_i none
    exact absurd called (none receiver argument rest)

mutual

/-- **The validator that is read from a builder's calls is that of its alternatives.** -/
theorem Builder.validatorTo_outline : ∀ builder : Builder, builder.isAdmissible = true →
    ∀ {fuel : Nat} {term : Term}, builder.depth ≤ fuel → builder.IsWritten env term →
      (validatorTo env fuel term).outline = .ofAlternatives builder.alternatives
  | .leaf one, _, fuel + 1, term, _, written => by
    obtain ⟨call, called, written⟩ := written
    rw [validatorTo_succ called, one.validatorOfCall_outline written, Builder.alternatives]
  | .id table, _, fuel + 1, term, _, written => by
    obtain ⟨receiver, argument, rest, called, same⟩ := written
    rw [validatorTo_succ called, Builder.alternatives]
    show (Validator.ofShape (.id (env.string? argument))).outline = _
    rw [same]
    rfl
  | .array element, admissible, fuel + 1, term, deep, written => by
    obtain ⟨receiver, argument, rest, called, written⟩ := written
    have inner := element.validatorTo_outline admissible (Nat.le_of_succ_le_succ deep) written
    rw [validatorTo_succ called, Builder.alternatives, ← inner]
    exact Validator.outline_ofShape _
  | .record value, admissible, fuel + 1, term, deep, written => by
    obtain ⟨receiver, key, argument, rest, called, _, written⟩ := written
    have inner := value.validatorTo_outline admissible (Nat.le_of_succ_le_succ deep) written
    rw [validatorTo_succ called, Builder.alternatives, ← inner]
    exact Validator.outline_ofShape _
  | .object fields, admissible, fuel + 1, term, deep, written => by
    obtain ⟨receiver, argument, rest, entries, called, form, written⟩ := written
    rw [Builder.isAdmissible, Bool.and_eq_true] at admissible
    have inner := FieldBuilder.fields_outline fields admissible.2 (Nat.le_of_succ_le_succ deep) written
    rw [validatorTo_succ called, Builder.alternatives, ← inner]
    show (match env.objectEntries? (env.resolve term) with
      | some entries => Validator.ofShape (.object (fieldsOf env (validatorTo env fuel) entries))
      | none => _).outline = _
    rw [objectEntries?_of_call? called form]
    exact Validator.outline_ofShape _
  | .union members, admissible, fuel + 1, term, deep, written => by
    obtain ⟨receiver, arguments, called, written⟩ := written
    rw [Builder.isAdmissible, Bool.and_eq_true] at admissible
    have inner := Builder.members_outline members admissible.2 (Nat.le_of_succ_le_succ deep) written
    rw [validatorTo_succ called, Builder.alternatives,
      ← unionOf_ofAlternatives (Builder.memberAlternatives_proper members admissible.2), ← inner]
    exact unionOf_outline _ _
  | .optional inner, admissible, fuel + 1, term, deep, written => by
    obtain ⟨receiver, argument, rest, called, written⟩ := written
    have same := inner.validatorTo_outline admissible (Nat.le_of_succ_le_succ deep) written
    rw [validatorTo_succ called, Builder.alternatives, Validator.ofAlternatives_absence, ← same]
    exact Validator.outline_admitting _ _ _
  | .nullable inner, admissible, fuel + 1, term, deep, written => by
    obtain ⟨receiver, argument, rest, called, written⟩ := written
    have same := inner.validatorTo_outline admissible (Nat.le_of_succ_le_succ deep) written
    rw [validatorTo_succ called, Builder.alternatives, Validator.ofAlternatives_null, ← same]
    exact Validator.outline_admitting _ _ _

theorem Builder.members_outline : ∀ members : List Builder, Builder.areAdmissible members = true →
    ∀ {fuel : Nat} {terms : List Term}, Builder.depths members ≤ fuel →
      Builder.AreWritten env members terms →
        (terms.map (validatorTo env fuel)).map Validator.outline =
          (Builder.memberAlternatives members).map Validator.ofAlternatives
  | [], _, fuel, terms, _, written => by
    cases written
    rfl
  | builder :: rest, admissible, fuel, terms, deep, written => by
    obtain ⟨term, others, rfl, written, more⟩ := written
    rw [Builder.areAdmissible, Bool.and_eq_true] at admissible
    rw [Builder.depths, Nat.max_le] at deep
    rw [List.map_cons, List.map_cons, Builder.memberAlternatives, List.map_cons,
      builder.validatorTo_outline admissible.1 deep.1 written,
      Builder.members_outline rest admissible.2 deep.2 more]

theorem FieldBuilder.fields_outline : ∀ fields : List FieldBuilder,
    FieldBuilder.areAdmissible fields = true →
    ∀ {fuel : Nat} {members : Members}, FieldBuilder.depths fields ≤ fuel →
      FieldBuilder.AreWritten env fields members →
        Field.outlines (members.map fun entry => .declare entry.1 (validatorTo env fuel entry.2) false)
          = FieldBuilder.fields fields
  | [], _, fuel, members, _, written => by
    cases written
    rfl
  | ⟨name, builder⟩ :: rest, admissible, fuel, members, deep, written => by
    obtain ⟨term, others, rfl, written, more⟩ := written
    rw [FieldBuilder.areAdmissible, Bool.and_eq_true, Bool.and_eq_true] at admissible
    rw [FieldBuilder.depths, Nat.max_le] at deep
    rw [List.map_cons, Field.outlines_declare, FieldBuilder.fields,
      builder.validatorTo_outline admissible.1.2 deep.1 written,
      FieldBuilder.fields_outline rest admissible.2 deep.2 more]

end

end Terms

end SwiftBindings
