/-
**How validators are put together.**

A term is read in two parts: which builder it stands for, with the terms that are the builder's parts
(`Environment.recipe`), and what validator is made of the validators of these parts
(`Recipe.validator`). The first part does not depend on the depth to which builders are read, the second
does not look at terms (`validatorTo_succ_eq`). So whatever relates the parts of two recipes one by one
relates the validators that they make (`Recipe.Alike.textless_validator`).
-/

import SwiftBindings.Proofs.Schema.Textless

namespace SwiftBindings

open Script

/-! ### Recipes -/

/-- What the validator of a term is made of. -/
inductive Recipe where
  /-- A shape without parts. -/
  | plain (shape : Shape)
  /-- A value of unknown shape. -/
  | gap (reason : Gap)
  /-- Null. -/
  | null
  /-- Another validator, with more leave. -/
  | admitting (optional nullable : Bool) (inner : Term)
  /-- Lists of elements. -/
  | array (element : Term)
  /-- Mappings from keys to values. -/
  | record (key value : Term)
  /-- Objects with these members. -/
  | object (members : Members)
  /-- Any of these members. -/
  | union (members : List Term)

/-- The recipe that a call is. -/
def Recipe.ofCall (env : Environment) (term : Term) (call : Call) : Recipe :=
  match call.name.getD "", call.arguments with
  | "string", _ => .plain .string
  | "number", _ | "float64", _ => .plain .number
  | "boolean", _ => .plain .boolean
  | "any", _ => .plain .any
  | "null", _ => .null
  | "id", arguments => .plain (.id (arguments.head?.bind env.string?))
  | "literal", literal :: _ =>
    match literalShape? (env.resolve literal) with
    | some shape => .plain shape
    | none => .gap .unclassified
  | "optional", argument :: _ => .admitting true false argument
  | "nullable", argument :: _ => .admitting false true argument
  | "array", element :: _ => .array element
  | "record", key :: value :: _ => .record key value
  | "object", _ =>
    match env.objectEntries? term with
    | some entries => .object (env.members entries)
    | none => .gap .unclassified
  | "union", members => .union members
  | "literal", _ | "optional", _ | "nullable", _ | "array", _ | "record", _ => .gap .unclassified
  | _, _ => .gap .unsupportedBuilder

/-- The recipe that a term stands for. -/
def Script.Environment.recipe (env : Environment) (term : Term) : Recipe :=
  match (env.resolve term).call? with
  | some call => .ofCall env (env.resolve term) call
  | none => .gap .unclassified

/-- The validator that is made of validators for the parts; what is unknown keeps the text. -/
def Recipe.validator (inner : Term → Validator) (text : String) : Recipe → Validator
  | .plain shape => .ofShape shape
  | .gap reason => .ofGap text reason
  | .null => (Validator.ofGap text .nullOnly).admitting false true
  | .admitting optional nullable part => (inner part).admitting optional nullable
  | .array element => .ofShape (.array (inner element))
  | .record key value => .ofShape (.record (some (inner key)) (inner value))
  | .object members =>
    .ofShape (.object (members.map fun entry => .declare entry.1 (inner entry.2) false))
  | .union members => unionOf text (members.map inner)

theorem validatorOfCall_eq (env : Environment) (inner : Term → Validator) (term : Term) (call : Call) :
    validatorOfCall env inner term call = (Recipe.ofCall env term call).validator inner term.text := by
  rw [validatorOfCall, Recipe.ofCall]
  split <;> simp only [*, Recipe.validator]
  -- A literal and an object may turn out to be none.
  · rename_i literal _ _ _
    cases literalShape? (env.resolve literal) <;> rfl
  · cases env.objectEntries? term <;> rfl

/-- **A term is read by its recipe, and the parts of the recipe one level less deep.** -/
theorem validatorTo_succ_eq (env : Environment) (depth : Nat) (term : Term) :
    validatorTo env (depth + 1) term =
      (env.recipe term).validator (validatorTo env depth) (env.resolve term).text := by
  rw [validatorTo, Environment.recipe]
  cases (env.resolve term).call? with
  | some call => exact validatorOfCall_eq env _ _ call
  | none => rfl

/-! ### Recipes part by part -/

/-- The recipes are made in one way, of related parts. -/
inductive Recipe.Alike (related : Term → Term → Prop) : Recipe → Recipe → Prop
  /-- The same shape. -/
  | plain (shape : Shape) : Alike related (.plain shape) (.plain shape)
  /-- The same gap. -/
  | gap (reason : Gap) : Alike related (.gap reason) (.gap reason)
  /-- Null. -/
  | null : Alike related .null .null
  /-- The same leave. -/
  | admitting (optional nullable : Bool) {inner inner' : Term} (same : related inner inner') :
    Alike related (.admitting optional nullable inner) (.admitting optional nullable inner')
  /-- Related elements. -/
  | array {element element' : Term} (same : related element element') :
    Alike related (.array element) (.array element')
  /-- Related keys and values. -/
  | record {key key' value value' : Term} (keys : related key key') (values : related value value') :
    Alike related (.record key value) (.record key' value')
  /-- Members of the same names, with related values. -/
  | object {members members' : Members}
    (same : List.Forall₂ (fun entry entry' => entry.1 = entry'.1 ∧ related entry.2 entry'.2)
      members members') : Alike related (.object members) (.object members')
  /-- Related members. -/
  | union {members members' : List Term} (same : List.Forall₂ related members members') :
    Alike related (.union members) (.union members')

/-- **Recipes of related parts make the same validators up to texts,** where related parts have. -/
theorem Recipe.Alike.textless_validator {related : Term → Term → Prop} {recipe recipe' : Recipe}
    (alike : Recipe.Alike related recipe recipe') {arrange : List String → List String}
    (arranges : IsArrangement arrange) {inner inner' : Term → Validator}
    (same : ∀ {term term' : Term}, related term term' →
      (inner term).textless arrange = (inner' term').textless arrange) (text text' : String) :
    (recipe.validator inner text).textless arrange =
      (recipe'.validator inner' text').textless arrange := by
  cases alike with
  | plain shape => rfl
  | gap reason =>
    rw [validator, validator, Validator.textless_ofGap, Validator.textless_ofGap]
  | null =>
    rw [validator, validator, Validator.textless_admitting, Validator.textless_admitting,
      Validator.textless_ofGap, Validator.textless_ofGap]
  | admitting optional nullable part =>
    rw [validator, validator, Validator.textless_admitting, Validator.textless_admitting, same part]
  | array element =>
    rw [validator, validator, Validator.textless_ofShape, Validator.textless_ofShape, Shape.textless,
      Shape.textless, same element]
  | record key value =>
    rw [validator, validator, Validator.textless_ofShape, Validator.textless_ofShape, Shape.textless,
      Shape.textless, same key, same value]
  | object members =>
    rw [validator, validator, Validator.textless_ofShape, Validator.textless_ofShape, Shape.textless,
      Shape.textless]
    refine congrArg (fun fields => Validator.ofShape (.object fields)) ?_
    induction members with
    | nil => rfl
    | cons entry _ ih =>
      rw [List.map_cons, List.map_cons, Field.allTextless_declare, Field.allTextless_declare, entry.1,
        same entry.2, ih]
  | union members =>
    refine unionOf_textless arranges text text' ?_
    induction members with
    | nil => rfl
    | cons member _ ih => rw [List.map_cons, List.map_cons, List.map_cons, List.map_cons, same member, ih]

end SwiftBindings
