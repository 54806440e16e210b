/-
**The texts of unknown values.**

An unknown value keeps the text that it comes from, and no rule looks at it: texts can be changed before
or after a union is put together (`unionOf_retext`). What two changes make of a schema is the same exactly
if they agree on the texts in it (`Schema.retext_eq_iff`).
-/

import SwiftBindings.Proofs.Schema.Textless

namespace SwiftBindings

/-! ### Changed texts -/

mutual

/-- The shape with the texts of unknown values changed. -/
def Shape.retext (change : String → String) : Shape → Shape
  | .string => .string
  | .number => .number
  | .boolean => .boolean
  | .id table => .id table
  | .array element => .array (element.retext change)
  | .record none value => .record none (value.retext change)
  | .record (some key) value => .record (some (key.retext change)) (value.retext change)
  | .object fields => .object (Field.retextAll change fields)
  | .enumeration values => .enumeration values
  | .any => .any
  | .unknown text gap => .unknown (change text) gap

/-- The validator with the texts of unknown values changed. -/
def Validator.retext (change : String → String) : Validator → Validator
  | ⟨shape, optional, nullable⟩ => ⟨shape.retext change, optional, nullable⟩

/-- The fields with the texts of unknown values changed. -/
def Field.retextAll (change : String → String) : List Field → List Field
  | [] => []
  | ⟨name, optional, nullable, schema⟩ :: rest =>
    ⟨name, optional, nullable, schema.retext change⟩ :: Field.retextAll change rest

end

/-- The table with the texts of unknown values changed. -/
def Table.retext (change : String → String) (table : Table) : Table :=
  { table with fields := Field.retextAll change table.fields }

/-- The schema with the texts of unknown values changed. -/
def Schema.retext (change : String → String) (schema : Schema) : Schema :=
  { schema with tables := schema.tables.map (Table.retext change) }

mutual

/-- The texts of the unknown values in a shape, in order. -/
def Shape.unknownTexts : Shape → List String
  | .string => []
  | .number => []
  | .boolean => []
  | .id _ => []
  | .array element => element.unknownTexts
  | .record none value => value.unknownTexts
  | .record (some key) value => key.unknownTexts ++ value.unknownTexts
  | .object fields => Field.allUnknownTexts fields
  | .enumeration _ => []
  | .any => []
  | .unknown text _ => [text]

/-- The texts of the unknown values in a validator, in order. -/
def Validator.unknownTexts : Validator → List String
  | ⟨shape, _, _⟩ => shape.unknownTexts

/-- The texts of the unknown values in fields, in order. -/
def Field.allUnknownTexts : List Field → List String
  | [] => []
  | ⟨_, _, _, schema⟩ :: rest => schema.unknownTexts ++ Field.allUnknownTexts rest

end

/-- The texts of the unknown values in a schema, in order. -/
def Schema.unknownTexts (schema : Schema) : List String :=
  schema.tables.flatMap fun table => Field.allUnknownTexts table.fields

/-! ### What a change sees -/

section Changes

variable {change change' : String → String}

mutual

theorem Shape.retext_eq_iff : ∀ shape : Shape,
    shape.retext change = shape.retext change' ↔ ∀ text ∈ shape.unknownTexts, change text = change' text
  | .string | .number | .boolean | .id _ | .enumeration _ | .any => by simp [Shape.retext, Shape.unknownTexts]
  | .array element => by simp [Shape.retext, Shape.unknownTexts, element.retext_eq_iff]
  | .record none value => by simp [Shape.retext, Shape.unknownTexts, value.retext_eq_iff]
  | .record (some key) value => by
    simp only [Shape.retext, Shape.unknownTexts, Shape.record.injEq, Option.some.injEq, key.retext_eq_iff,
      value.retext_eq_iff, List.forall_mem_append]
  | .object fields => by simp [Shape.retext, Shape.unknownTexts, Field.retextAll_eq_iff fields]
  | .unknown text gap => by simp [Shape.retext, Shape.unknownTexts]

theorem Validator.retext_eq_iff : ∀ validator : Validator,
    validator.retext change = validator.retext change' ↔
      ∀ text ∈ validator.unknownTexts, change text = change' text
  | ⟨shape, _, _⟩ => by simp [Validator.retext, Validator.unknownTexts, shape.retext_eq_iff]

theorem Field.retextAll_eq_iff : ∀ fields : List Field,
    Field.retextAll change fields = Field.retextAll change' fields ↔
      ∀ text ∈ Field.allUnknownTexts fields, change text = change' text
  | [] => by simp [Field.retextAll, Field.allUnknownTexts]
  | ⟨_, _, _, schema⟩ :: rest => by
    simp only [Field.retextAll, Field.allUnknownTexts, List.cons.injEq, Field.mk.injEq, true_and,
      schema.retext_eq_iff, Field.retextAll_eq_iff rest, List.forall_mem_append]

end

/-- **What two changes make of a schema is the same exactly if they agree on the texts in it.** -/
theorem Schema.retext_eq_iff (schema : Schema) :
    schema.retext change = schema.retext change' ↔
      ∀ text ∈ schema.unknownTexts, change text = change' text := by
  obtain ⟨source, tables⟩ := schema
  simp only [Schema.retext, Schema.unknownTexts, Schema.mk.injEq, true_and, List.mem_flatMap]
  rw [List.map_inj_left]
  simp only [Table.retext, Table.mk.injEq, true_and, and_true, Field.retextAll_eq_iff]
  exact ⟨fun same text ⟨table, member, found⟩ => same table member text found,
    fun same table member text found => same text ⟨table, member, found⟩⟩

mutual

theorem Shape.unknownTexts_retext : ∀ shape : Shape,
    (shape.retext change).unknownTexts = shape.unknownTexts.map change
  | .string | .number | .boolean | .id _ | .enumeration _ | .any | .unknown _ _ => by
    simp [Shape.retext, Shape.unknownTexts]
  | .array element => by simp [Shape.retext, Shape.unknownTexts, element.unknownTexts_retext]
  | .record none value => by simp [Shape.retext, Shape.unknownTexts, value.unknownTexts_retext]
  | .record (some key) value => by
    simp [Shape.retext, Shape.unknownTexts, key.unknownTexts_retext, value.unknownTexts_retext]
  | .object fields => by simp [Shape.retext, Shape.unknownTexts, Field.allUnknownTexts_retext fields]

theorem Validator.unknownTexts_retext : ∀ validator : Validator,
    (validator.retext change).unknownTexts = validator.unknownTexts.map change
  | ⟨shape, _, _⟩ => by simp [Validator.retext, Validator.unknownTexts, shape.unknownTexts_retext]

theorem Field.allUnknownTexts_retext : ∀ fields : List Field,
    Field.allUnknownTexts (Field.retextAll change fields) = (Field.allUnknownTexts fields).map change
  | [] => by simp [Field.retextAll, Field.allUnknownTexts]
  | ⟨_, _, _, schema⟩ :: rest => by
    simp [Field.retextAll, Field.allUnknownTexts, schema.unknownTexts_retext,
      Field.allUnknownTexts_retext rest]

end

theorem Schema.unknownTexts_retext (schema : Schema) :
    (schema.retext change).unknownTexts = schema.unknownTexts.map change := by
  rw [Schema.unknownTexts, Schema.unknownTexts, Schema.retext, List.flatMap_map, List.map_flatMap]
  simp only [Table.retext, Field.allUnknownTexts_retext]

mutual

theorem Shape.textless_retext (arrange : List String → List String) : ∀ shape : Shape,
    (shape.retext change).textless arrange = shape.textless arrange
  | .string | .number | .boolean | .id _ | .enumeration _ | .any | .unknown _ _ => by
    simp [Shape.retext, Shape.textless]
  | .array element => by simp [Shape.retext, Shape.textless, element.textless_retext arrange]
  | .record none value => by simp [Shape.retext, Shape.textless, value.textless_retext arrange]
  | .record (some key) value => by
    simp [Shape.retext, Shape.textless, key.textless_retext arrange, value.textless_retext arrange]
  | .object fields => by simp [Shape.retext, Shape.textless, Field.allTextless_retext arrange fields]

theorem Validator.textless_retext (arrange : List String → List String) : ∀ validator : Validator,
    (validator.retext change).textless arrange = validator.textless arrange
  | ⟨shape, _, _⟩ => by simp [Validator.retext, Validator.textless, shape.textless_retext arrange]

theorem Field.allTextless_retext (arrange : List String → List String) : ∀ fields : List Field,
    Field.allTextless arrange (Field.retextAll change fields) = Field.allTextless arrange fields
  | [] => by simp [Field.retextAll, Field.allTextless]
  | ⟨_, _, _, schema⟩ :: rest => by
    simp [Field.retextAll, Field.allTextless, schema.textless_retext arrange,
      Field.allTextless_retext arrange rest]

end

/-- A change of texts does not show without texts. -/
theorem Schema.textless_retext (arrange : List String → List String) (schema : Schema) :
    (schema.retext change).textless arrange = schema.textless arrange := by
  rw [Schema.textless, Schema.textless, Schema.retext, List.map_map]
  refine congrArg (Schema.mk schema.source) (List.map_congr_left fun table _ => ?_)
  rw [Function.comp_apply, Table.textless, Table.textless, Table.retext, Field.allTextless_retext]

end Changes

/-! ### How validators are put together -/

section Builders

variable (change : String → String) (validator : Validator) (shape : Shape)

theorem Validator.retext_eq : validator.retext change =
    ⟨validator.shape.retext change, validator.optional, validator.nullable⟩ := by
  cases validator
  rw [Validator.retext]

theorem Validator.retext_ofShape :
    (Validator.ofShape shape).retext change = .ofShape (shape.retext change) := by
  rw [Validator.retext_eq]
  rfl

theorem Validator.retext_ofGap (text : String) (gap : Gap) :
    (Validator.ofGap text gap).retext change = .ofGap (change text) gap := by
  rw [Validator.ofGap, Validator.retext_ofShape, Shape.retext]
  rfl

theorem Validator.retext_admitting (optional nullable : Bool) :
    (validator.admitting optional nullable).retext change =
      (validator.retext change).admitting optional nullable := by
  rw [Validator.retext_eq, Validator.retext_eq]
  rfl

theorem Field.retextAll_declare (name : String) (rest : List Field) :
    Field.retextAll change (.declare name validator false :: rest) =
      .declare name (validator.retext change) false :: Field.retextAll change rest := by
  rw [Field.declare, Field.retextAll, Field.declare, Validator.retext_eq]

/-! ### Unions -/

theorem Shape.isTextual_retext : (shape.retext change).isTextual = shape.isTextual := by
  rw [← Shape.isTextual_textless sorted, Shape.textless_retext, Shape.isTextual_textless]

theorem Shape.isBoolean_retext : (shape.retext change).isBoolean = shape.isBoolean := by
  rw [← Shape.isBoolean_textless sorted, Shape.textless_retext, Shape.isBoolean_textless]

theorem Shape.values?_retext : (shape.retext change).values? = shape.values? := by
  cases shape with
  | record key value => cases key <;> simp [Shape.retext, Shape.values?]
  | _ => simp [Shape.retext, Shape.values?]

theorem Validator.isNullOnly_retext : (validator.retext change).isNullOnly = validator.isNullOnly := by
  rw [← Validator.isNullOnly_textless sorted, Validator.textless_retext, Validator.isNullOnly_textless]

theorem unionShape_retext (text : String) (shapes : List Shape) :
    unionShape (change text) (shapes.map (Shape.retext change)) =
      (unionShape text shapes).retext change := by
  match shapes with
  | [] => rw [List.map_nil, unionShape, unionShape, Shape.retext]
  | [shape] => rfl
  | first :: second :: rest =>
    have many : 2 ≤ (first :: second :: rest).length := by simp
    generalize first :: second :: rest = shapes at many
    have joined : Shape.joinedValues? (shapes.map (Shape.retext change)) = Shape.joinedValues? shapes := by
      rw [Shape.joinedValues?, Shape.joinedValues?, List.mapM_map]
      exact congrArg (fun values? => (List.mapM values? shapes).map fun values => values.flatten.eraseDups)
        (funext (Shape.values?_retext change))
    rw [unionShape_many _ ((List.length_map _).symm ▸ many), unionShape_many text many, joined,
      List.all_map, List.all_map, Function.comp_def, Function.comp_def]
    simp only [Shape.isTextual_retext, Shape.isBoolean_retext]
    split
    · rw [Shape.retext]
    · split
      · rw [Shape.retext]
      · split <;> rw [Shape.retext]

/-- **A union of changed members is the changed union.** -/
theorem unionOf_retext (text : String) (members : List Validator) :
    unionOf (change text) (members.map (Validator.retext change)) =
      (unionOf text members).retext change := by
  have present : ((members.map (Validator.retext change)).filter fun member => !member.isNullOnly) =
      (members.filter fun member => !member.isNullOnly).map (Validator.retext change) := by
    rw [List.filter_map]
    exact congrArg (fun test => (members.filter test).map (Validator.retext change))
      (funext fun member => congrArg not (member.isNullOnly_retext change))
  have shapes : ∀ members : List Validator, (members.map (Validator.retext change)).map Validator.shape =
      (members.map Validator.shape).map (Shape.retext change) := fun members => by
    rw [List.map_map, List.map_map]
    exact List.map_congr_left fun member _ => by
      rw [Function.comp_apply, Function.comp_apply, Validator.retext_eq]
  rw [unionOf, unionOf, Validator.retext_eq, present, shapes, unionShape_retext, List.any_map,
    List.any_map, Function.comp_def, Function.comp_def]
  simp only [Validator.isNullOnly_retext]
  simp only [Validator.retext_eq]

end Builders

end SwiftBindings
