/-
**The dump of a schema determines the schema.**

A validator is written as one object: the kind first, then what belongs to the kind, and last the leaves
that are given. Members that say nothing are left out: a table or a key that is not known, a leave that
is not given, indexes where there are none. Nothing is lost by that, since the kind tells which members
can follow and no kind has a member with the name of a leave.

**The main statement.** `dump_eq_iff`: two schemas with one dump are one schema, whatever names and texts
they hold. It is composed of the injectivity of `Schema.json` and of that of the text of JSON values.
-/

import Mathlib.Data.List.Basic
import SwiftBindings.Proofs.Json.Unambiguous
import SwiftBindings.Schema.Generation

namespace SwiftBindings

open Json (Value)

/-! ### Names for data -/

theorem Gap.tag_injective : Function.Injective Gap.tag := by
  intro gap other same
  cases gap <;> cases other <;> first | rfl | exact absurd same (by decide)

theorem IndexKind.tag_injective : Function.Injective IndexKind.tag := by
  intro kind other same
  cases kind <;> cases other <;> first | rfl | exact absurd same (by decide)

theorem strings_injective : Function.Injective (List.map Value.string) :=
  List.map_injective_iff.mpr fun _ _ => Value.string.inj

/-! ### Leaves -/

/-- The members that state leaves determine the leaves. -/
theorem leaveMembers_inj {optional nullable optional' nullable' : Bool}
    (same : leaveMembers optional nullable = leaveMembers optional' nullable') :
    optional = optional' ∧ nullable = nullable' := by
  cases optional <;> cases nullable <;> cases optional' <;> cases nullable' <;>
    simp_all [leaveMembers]

/-- Leaves have names of their own. -/
theorem leaveMembers_ne_cons {optional nullable : Bool} {name : String} {value : Value}
    {rest : List (String × Value)} (absent : name ≠ "optional") (null : name ≠ "nullable") :
    leaveMembers optional nullable ≠ (name, value) :: rest := by
  intro same
  cases optional <;> cases nullable <;> simp [leaveMembers] at same
  all_goals
    first
    | exact absent same.1.1.symm
    | exact null same.1.1.symm

/-! ### Shapes, validators and fields -/

/-- The first member of a shape is its kind. -/
theorem Shape.members_eq_cons (shape : Shape) :
    ∃ rest, shape.members = ("kind", .string shape.kindName) :: rest := by
  cases shape with
  | id table => cases table <;> exact ⟨_, by rw [Shape.members]; rfl⟩
  | record key value => cases key <;> exact ⟨_, by rw [Shape.members]; rfl⟩
  | _ => exact ⟨_, by rw [Shape.members]; rfl⟩

/-- Where members start with those of two shapes, the kinds are the same. -/
theorem Shape.kindName_eq_of_members {shape other : Shape} {leaves leaves' : List (String × Value)}
    (same : shape.members ++ leaves = other.members ++ leaves') : shape.kindName = other.kindName := by
  obtain ⟨rest, members⟩ := shape.members_eq_cons
  obtain ⟨rest', members'⟩ := other.members_eq_cons
  rw [members, members', List.cons_append, List.cons_append] at same
  exact Value.string.inj (Prod.mk.inj (List.cons.inj same).1).2

mutual

/-- The members of a validator determine its shape and its leaves. -/
theorem Shape.members_append_inj : ∀ (shape other : Shape) {optional nullable optional' nullable' : Bool},
    shape.members ++ leaveMembers optional nullable =
        other.members ++ leaveMembers optional' nullable' →
      shape = other ∧ leaveMembers optional nullable = leaveMembers optional' nullable'
  | .id table, other, _, _, _, _, same => by
    have kind := Shape.kindName_eq_of_members same
    cases other with
    | id table' =>
      cases table <;> cases table' <;>
        simp only [Shape.members, List.cons_append, List.nil_append, List.cons.injEq, true_and] at same
      · exact ⟨rfl, same⟩
      · exact absurd same (leaveMembers_ne_cons (by decide) (by decide))
      · exact absurd same.symm (leaveMembers_ne_cons (by decide) (by decide))
      · obtain ⟨table, leaves⟩ := same
        cases table
        exact ⟨rfl, leaves⟩
    | _ => simp [Shape.kindName] at kind
  | .array element, other, _, _, _, _, same => by
    have kind := Shape.kindName_eq_of_members same
    cases other with
    | array element' =>
      simp only [Shape.members, List.cons_append, List.nil_append, List.cons.injEq, Prod.mk.injEq,
        true_and] at same
      exact ⟨congrArg Shape.array (Validator.json_inj element element' same.1), same.2⟩
    | _ => simp [Shape.kindName] at kind
  | .record key value, other, _, _, _, _, same => by
    have kind := Shape.kindName_eq_of_members same
    cases other with
    | record key' value' =>
      cases key <;> cases key' <;>
        simp only [Shape.members, List.cons_append, List.nil_append, List.cons.injEq, Prod.mk.injEq,
          true_and] at same
      case none.none =>
        rw [Validator.json_inj value value' same.1]
        exact ⟨rfl, same.2⟩
      case some.some key key' =>
        obtain ⟨keys, values, leaves⟩ := same
        rw [Validator.json_inj key key' keys, Validator.json_inj value value' values]
        exact ⟨rfl, leaves⟩
      all_goals exact absurd same.1.1 (by decide)
    | _ => simp [Shape.kindName] at kind
  | .object fields, other, _, _, _, _, same => by
    have kind := Shape.kindName_eq_of_members same
    cases other with
    | object fields' =>
      simp only [Shape.members, List.cons_append, List.nil_append, List.cons.injEq, Prod.mk.injEq,
        true_and, Value.array.injEq] at same
      exact ⟨congrArg Shape.object (Field.jsons_inj fields fields' same.1), same.2⟩
    | _ => simp [Shape.kindName] at kind
  | .enumeration values, other, _, _, _, _, same => by
    have kind := Shape.kindName_eq_of_members same
    cases other with
    | enumeration values' =>
      simp only [Shape.members, List.cons_append, List.nil_append, List.cons.injEq, Prod.mk.injEq,
        true_and, Value.array.injEq] at same
      exact ⟨congrArg Shape.enumeration (strings_injective same.1), same.2⟩
    | _ => simp [Shape.kindName] at kind
  | .unknown text gap, other, _, _, _, _, same => by
    have kind := Shape.kindName_eq_of_members same
    cases other with
    | unknown text' gap' =>
      simp only [Shape.members, List.cons_append, List.nil_append, List.cons.injEq, Prod.mk.injEq,
        true_and, Value.string.injEq] at same
      obtain ⟨rfl, tag, leaves⟩ := same
      exact ⟨congrArg (Shape.unknown text) (Gap.tag_injective tag), leaves⟩
    | _ => simp [Shape.kindName] at kind
  | .string, other, _, _, _, _, same | .number, other, _, _, _, _, same
  | .boolean, other, _, _, _, _, same | .any, other, _, _, _, _, same => by
    have kind := Shape.kindName_eq_of_members same
    cases other <;> simp [Shape.kindName] at kind
    exact ⟨rfl, List.append_cancel_left same⟩

/-- A validator is determined by its JSON. -/
theorem Validator.json_inj : ∀ validator other : Validator, validator.json = other.json → validator = other
  | ⟨shape, optional, nullable⟩, ⟨shape', optional', nullable'⟩, same => by
    rw [Validator.json, Validator.json, Value.object.injEq] at same
    obtain ⟨rfl, leaves⟩ := Shape.members_append_inj shape shape' same
    obtain ⟨rfl, rfl⟩ := leaveMembers_inj leaves
    rfl

/-- Fields are determined by their JSON. -/
theorem Field.jsons_inj : ∀ fields others : List Field,
    Field.jsons fields = Field.jsons others → fields = others
  | [], [], _ => rfl
  | [], ⟨_, _, _, _⟩ :: _, same => by
    rw [Field.jsons, Field.jsons] at same
    cases same
  | ⟨_, _, _, _⟩ :: _, [], same => by
    rw [Field.jsons, Field.jsons] at same
    cases same
  | ⟨name, optional, nullable, schema⟩ :: rest, ⟨name', optional', nullable', schema'⟩ :: rest', same => by
    simp only [Field.jsons, List.cons.injEq, Value.object.injEq, Prod.mk.injEq, Value.string.injEq,
      Value.bool.injEq, true_and, and_true] at same
    obtain ⟨⟨rfl, rfl, rfl, inner⟩, others⟩ := same
    rw [Validator.json_inj schema schema' inner, Field.jsons_inj rest rest' others]

end

/-! ### Schemas -/

theorem Index.json_injective : Function.Injective Index.json := by
  rintro ⟨kind, name, fields⟩ ⟨kind', name', fields'⟩ same
  simp only [Index.json, Value.object.injEq, List.cons.injEq, Prod.mk.injEq, Value.string.injEq,
    Value.array.injEq, true_and, and_true] at same
  obtain ⟨tag, rfl, names⟩ := same
  rw [IndexKind.tag_injective tag, strings_injective names]

/-- A table is determined by its JSON: indexes are left out only where there are none. -/
theorem Table.json_injective : Function.Injective Table.json := by
  rintro ⟨name, fields, indexes⟩ ⟨name', fields', indexes'⟩ same
  simp only [Table.json, Value.object.injEq, List.cons_append, List.nil_append, List.cons.injEq,
    Prod.mk.injEq, Value.string.injEq, Value.array.injEq, true_and] at same
  obtain ⟨rfl, inner, others⟩ := same
  rw [Field.jsons_inj fields fields' inner]
  cases indexes <;> cases indexes'
  case nil.nil => rfl
  case cons.cons =>
    simp only [List.isEmpty_cons, Bool.false_eq_true, if_false, List.cons.injEq, Prod.mk.injEq,
      Value.array.injEq, true_and, and_true] at others
    rw [List.map_injective_iff.mpr Index.json_injective others]
  all_goals cases others

theorem Schema.json_injective : Function.Injective Schema.json := by
  rintro ⟨source, tables⟩ ⟨source', tables'⟩ same
  simp only [Schema.json, Value.object.injEq, List.cons.injEq, Prod.mk.injEq, Value.string.injEq,
    Value.array.injEq, true_and, and_true] at same
  obtain ⟨rfl, tables⟩ := same
  rw [List.map_injective_iff.mpr Table.json_injective tables]

/-- **The dump of a schema determines the schema.** -/
theorem dump_eq_iff (schema other : Schema) :
    (GeneratedSchema.ofSchema schema).dump = (GeneratedSchema.ofSchema other).dump ↔ schema = other :=
  (Json.Value.fileText_injective.comp Schema.json_injective).eq_iff

end SwiftBindings
