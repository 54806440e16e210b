/-
**Values without a type.**

The usage report lists the places whose type the generated code cannot express, and the generated code
stands for such a value with the value of unknown shape. The two are found by walks of their own: the
survey stops at a mapping of untyped values, and rendering shares the declarations it has made before.
Both come upon the same values: those among the elements of lists, the values of mappings and the fields
of objects (`Shape.hasUntyped`).

**The main statement.** `Schema.usesJsonValue_iff_issues`: where no table declares a field that every
document has anyway, the generated file needs the value of unknown shape exactly where the report has an
issue. A declared field of such a name is surveyed, but not rendered.
-/

import Mathlib.Data.List.Induction
import SwiftBindings.Proofs.Swift.Mentions
import SwiftBindings.Schema.Usage

namespace SwiftBindings

open Swift

/-! ### Untyped values -/

mutual

/-- Some value of the shape is untyped: itself, or one of its elements, values or fields. -/
def Shape.hasUntyped : Shape → Bool
  | .any | .unknown _ _ => true
  | .array element => element.hasUntyped
  | .record _ value => value.hasUntyped
  | .object fields => Field.anyUntyped fields
  | .string | .number | .boolean | .id _ | .enumeration _ => false

/-- Some value that the validator accepts is untyped. -/
def Validator.hasUntyped : Validator → Bool
  | ⟨shape, _, _⟩ => shape.hasUntyped

/-- Some value of some field is untyped. -/
def Field.anyUntyped : List Field → Bool
  | [] => false
  | ⟨_, _, _, schema⟩ :: rest => schema.hasUntyped || Field.anyUntyped rest

end

theorem Shape.hasUntyped_of_isUntyped {shape : Shape} (untyped : shape.isUntyped = true) :
    shape.hasUntyped = true := by
  cases shape with
  | any | unknown => rw [Shape.hasUntyped]
  | _ => cases untyped

theorem Field.anyUntyped_append (fields others : List Field) :
    Field.anyUntyped (fields ++ others) = (Field.anyUntyped fields || Field.anyUntyped others) := by
  induction fields with
  | nil => rw [List.nil_append, Field.anyUntyped, Bool.false_or]
  | cons field rest ih =>
    obtain ⟨_, _, _, schema⟩ := field
    rw [List.cons_append, Field.anyUntyped, Field.anyUntyped, ih, Bool.or_assoc]

/-! ### What the survey finds -/

@[simp] theorem Survey.issues_append (first second : Survey) :
    (first ++ second).issues = first.issues ++ second.issues := rfl

@[simp] theorem Survey.issues_ofNames (names : List String) : (Survey.ofNames names).issues = [] := rfl

section Survey

variable (table : String)

mutual

/-- The survey of a shape has no issue exactly where the shape has no untyped value. -/
theorem Shape.issues_survey_eq_nil (path : String) :
    ∀ shape : Shape, (shape.survey table path).issues = [] ↔ shape.hasUntyped = false
  | .any | .unknown _ _ => by
    rw [Shape.survey, Shape.hasUntyped]
    exact iff_of_false (List.cons_ne_nil _ _) Bool.noConfusion
  | .string | .number | .boolean | .id _ | .enumeration _ => by
    rw [Shape.hasUntyped]
    exact iff_of_true rfl rfl
  | .array element => by
    rw [Shape.survey, Shape.hasUntyped]
    exact element.issues_survey_eq_nil (path ++ "[]")
  | .record _ value => by
    rw [Shape.survey, Shape.hasUntyped]
    split
    · rename_i untyped
      obtain ⟨shape, _, _⟩ := value
      rw [Validator.hasUntyped, Shape.hasUntyped_of_isUntyped untyped]
      exact iff_of_false (List.cons_ne_nil _ _) Bool.noConfusion
    · exact value.issues_survey_eq_nil (path ++ "\x7b\x7d")
  | .object fields => by
    rw [Shape.survey, Shape.hasUntyped]
    exact Field.issues_surveyAll_eq_nil path fields

theorem Validator.issues_survey_eq_nil (path : String) :
    ∀ validator : Validator, (validator.survey table path).issues = [] ↔ validator.hasUntyped = false
  | ⟨shape, _, _⟩ => by
    rw [Validator.survey, Validator.hasUntyped, Survey.issues_append, Survey.issues_ofNames,
      List.nil_append]
    exact shape.issues_survey_eq_nil path

theorem Field.issues_surveyAll_eq_nil (path : String) : ∀ fields : List Field,
    (Field.surveyAll table path fields).issues = [] ↔ Field.anyUntyped fields = false
  | [] => by
    rw [Field.anyUntyped]
    exact iff_of_true rfl rfl
  | ⟨name, optional, nullable, schema⟩ :: rest => by
    rw [Field.surveyAll, Field.anyUntyped, Survey.issues_append, Survey.issues_append,
      Survey.issues_ofNames, List.nil_append, List.append_eq_nil_iff, Bool.or_eq_false_iff,
      schema.issues_survey_eq_nil (fieldPath path name), Field.issues_surveyAll_eq_nil path rest]

end

end Survey

/-- **The usage report has no issue exactly where no declared field has an untyped value.** -/
theorem Schema.issues_usage_eq_nil (schema : Schema) : schema.usage.issues = [] ↔
    ∀ table ∈ schema.tables, Field.anyUntyped table.fields = false := by
  obtain ⟨source, tables⟩ := schema
  show (tables.foldl (fun found table => found ++ table.survey) Survey.empty).issues = [] ↔ _
  dsimp only
  induction tables using List.reverseRecOn with
  | nil => exact iff_of_true rfl fun _ member => absurd member List.not_mem_nil
  | append_singleton tables table ih =>
    rw [List.foldl_append, List.foldl_cons, List.foldl_nil, Survey.issues_append,
      List.append_eq_nil_iff, ih, Table.survey, Field.issues_surveyAll_eq_nil, List.forall_mem_append,
      List.forall_mem_singleton]

/-! ### What rendering comes upon -/

namespace Swift

/-- Registering a declaration reads no value. -/
theorem Registry.usesJsonValue_register (registry : Registry) (declaration : Declaration) :
    (registry.register declaration).2.usesJsonValue = registry.usesJsonValue := by
  obtain ⟨attempt, _, same⟩ := registry.register_eq declaration
  rw [same, Registry.insert]
  split <;> rfl

mutual

/-- Rendering a shape that is read needs the value of unknown shape exactly where the shape has an
untyped value. -/
theorem Registry.usesJsonValue_renderShape (path : List String) (registry : Registry) :
    ∀ shape : Shape, (registry.renderShape path .decode shape).2.usesJsonValue =
      (registry.usesJsonValue || shape.hasUntyped)
  | .string | .number | .boolean | .id none => by
    rw [Registry.renderShape, Shape.hasUntyped, Bool.or_false]
  | .id (some table) => by
    rw [Registry.renderShape, Shape.hasUntyped, Bool.or_false]
    exact registry.usesJsonValue_register _
  | .array ⟨shape, _, _⟩ => by
    rw [Registry.renderShape, Shape.hasUntyped, Validator.hasUntyped]
    exact Registry.usesJsonValue_renderShape (path ++ ["Item"]) registry shape
  | .record _ ⟨shape, _, _⟩ => by
    rw [Registry.renderShape, Shape.hasUntyped, Validator.hasUntyped]
    exact Registry.usesJsonValue_renderShape (path ++ ["Value"]) registry shape
  | .object fields => by
    rw [Registry.renderShape, Shape.hasUntyped,
      ← Registry.usesJsonValue_renderProperties path generatedMembers registry fields]
    exact Registry.usesJsonValue_register _ _
  | .enumeration values => by
    rw [Registry.renderShape, Shape.hasUntyped, Bool.or_false]
    exact registry.usesJsonValue_register _
  | .any | .unknown _ _ => by
    rw [Registry.renderShape, Shape.hasUntyped, Bool.or_true]
    rfl

theorem Registry.usesJsonValue_renderProperties (path taken : List String) (registry : Registry) :
    ∀ fields : List Field, (registry.renderProperties path .decode taken fields).2.usesJsonValue =
      (registry.usesJsonValue || Field.anyUntyped fields)
  | [] => by rw [Registry.renderProperties, Field.anyUntyped, Bool.or_false]
  | ⟨name, _, _, ⟨shape, _, _⟩⟩ :: rest => by
    rw [Registry.renderProperties, Field.anyUntyped, Validator.hasUntyped, ← Bool.or_assoc,
      ← Registry.usesJsonValue_renderShape (path ++ [name]) registry shape]
    exact Registry.usesJsonValue_renderProperties path _ _ rest

end

theorem Registry.usesJsonValue_renderStruct (registry : Registry) (fields : List Field)
    (path : List String) : (registry.renderStruct fields path .decode).2.usesJsonValue =
      (registry.usesJsonValue || Field.anyUntyped fields) := by
  rw [Registry.renderStruct, ← registry.usesJsonValue_renderProperties path generatedMembers fields]
  exact Registry.usesJsonValue_register _ _

end Swift

/-- **The generated file does not need the value of unknown shape exactly where no field of a document
has an untyped value.** -/
theorem Schema.usesJsonValue_bindings_eq_false (schema : Schema) :
    schema.bindings.usesJsonValue = false ↔
      ∀ table ∈ schema.tables, Field.anyUntyped table.documentFields = false := by
  obtain ⟨source, tables⟩ := schema
  show (tables.foldl Table.register .empty).usesJsonValue = false ↔ _
  dsimp only
  induction tables using List.reverseRecOn with
  | nil => exact iff_of_true rfl fun _ member => absurd member List.not_mem_nil
  | append_singleton tables table ih =>
    rw [List.foldl_append, List.foldl_cons, List.foldl_nil, Table.register,
      Registry.usesJsonValue_renderStruct, Bool.or_eq_false_iff, ih, List.forall_mem_append,
      List.forall_mem_singleton]

/-! ### The report and the generated file -/

/-- No field of the table has a name of a field that every document has. -/
def Table.OnlyOwnFields (table : Table) : Prop :=
  ∀ field ∈ table.fields, field.name ≠ "_id" ∧ field.name ≠ "_creationTime"

instance (table : Table) : Decidable table.OnlyOwnFields :=
  inferInstanceAs (Decidable (∀ field ∈ table.fields, _))

theorem Table.OnlyOwnFields.documentFields {table : Table} (own : table.OnlyOwnFields) :
    table.documentFields = table.systemFields ++ table.fields := by
  rw [Table.documentFields, List.filter_eq_self.mpr]
  intro field member
  simp [own field member]

/-- The fields that every document has are typed. -/
theorem Table.OnlyOwnFields.anyUntyped {table : Table} (own : table.OnlyOwnFields) :
    Field.anyUntyped table.documentFields = Field.anyUntyped table.fields := by
  rw [own.documentFields, Field.anyUntyped_append]
  rfl

/-- **The usage report and the generated file agree.** Where no table declares a field that every
document has anyway, the generated file needs the value of unknown shape, and mentions it, exactly where
the usage report has an issue. -/
theorem Schema.usesJsonValue_iff_issues (schema : Schema)
    (own : ∀ table ∈ schema.tables, table.OnlyOwnFields) :
    (schema.bindings.usesJsonValue = true ↔ schema.usage.issues ≠ []) ∧
      (schema.bindings.Mentions .jsonValue ↔ schema.usage.issues ≠ []) := by
  have flag : schema.bindings.usesJsonValue = true ↔ schema.usage.issues ≠ [] := by
    rw [← Bool.not_eq_false, not_iff_not, schema.usesJsonValue_bindings_eq_false,
      schema.issues_usage_eq_nil]
    exact forall₂_congr fun table member => by rw [(own table member).anyUntyped]
  obtain ⟨accounts, holds⟩ := Table.registerAll_accounts Registry.accounts_empty schema.tables
  have distinct := (Table.registerAll_reads .empty schema.tables).1.distinct Registry.distinct_empty
  have supported : schema.bindings.Supported (documentStructs .empty schema.tables) :=
    accounts.file _ _ distinct holds fun mention => (or_iff_left List.not_mem_nil).symm
  exact ⟨flag, supported.jsonValue.symm.trans flag⟩

/-- A schema with a mapping of untyped values, deep inside an object that has a field `_id` of its own. -/
def logSchema : Schema :=
  ⟨"schema.ts", [⟨"users", [.declare "name" (.ofShape .string) false], []⟩,
    ⟨"logs", [.declare "entries" (.ofShape (.array (.ofShape (.object
      [.declare "_id" (.ofShape (.id none)) false,
        .declare "extra" (.ofShape (.record (some (.ofShape .string)) (.ofShape .any))) true])))) false],
      []⟩]⟩

/-- Its report has an issue, and its file needs the value of unknown shape. -/
theorem logSchema_agrees :
    (∀ table ∈ logSchema.tables, table.OnlyOwnFields) ∧
      logSchema.bindings.usesJsonValue = true ∧ logSchema.bindings.Mentions .jsonValue ∧
        logSchema.usage.issues ≠ [] := by
  have own : ∀ table ∈ logSchema.tables, table.OnlyOwnFields := by decide
  have issue : logSchema.usage.issues ≠ [] := by decide
  obtain ⟨flag, mentions⟩ := logSchema.usesJsonValue_iff_issues own
  exact ⟨own, flag.mpr issue, mentions.mpr issue, issue⟩

-- A declared field of a name that every document has is surveyed, and not rendered.
example :
    let schema : Schema := ⟨"schema.ts", [⟨"users", [.declare "_id" (.ofShape .any) false], []⟩]⟩
    schema.usage.issues ≠ [] ∧ schema.bindings.usesJsonValue = false := by
  decide +kernel

end SwiftBindings
