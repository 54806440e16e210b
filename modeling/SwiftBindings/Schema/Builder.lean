/-
**Validators as they are written.**

A validator is written as a call of a builder: `v.string()`, `v.array(v.number())`, `v.union(...)`.
The name of the called member alone decides. What is no call of a known builder is unknown and keeps
its source text; so is what is nested deeper than `maximalSteps` builders.
-/

import SwiftBindings.Script.Environment
import SwiftBindings.Validator.Basic

namespace SwiftBindings

open Script

/-! ### Literals and unions -/

/-- The term is a number, or a number behind a minus sign. -/
def isNumberLiteral (term : Term) : Bool :=
  match term.form with
  | .number => true
  | .minus ⟨.number, _⟩ => true
  | _ => false

/-- The shape of the values equal to a literal. -/
def literalShape? (term : Term) : Option Shape :=
  match term.form with
  | .string value => some (.enumeration [value])
  | .boolean _ => some .boolean
  | _ => if isNumberLiteral term then some .number else none

/-- The validator accepts nothing but null. -/
def Validator.isNullOnly (validator : Validator) : Bool :=
  match validator.shape with
  | .unknown _ .nullOnly => true
  | _ => false

/-- The values of an enumeration. -/
def Shape.values? : Shape → Option (List String)
  | .enumeration values => some values
  | _ => none

/-- The shape accepts strings only. -/
def Shape.isTextual : Shape → Bool
  | .enumeration _ | .string => true
  | _ => false

/-- The shape accepts truth values only. -/
def Shape.isBoolean : Shape → Bool
  | .boolean => true
  | _ => false

/-- The shape of a union of shapes. -/
def unionShape (text : String) (shapes : List Shape) : Shape :=
  match shapes with
  | [] => .unknown text .nullOnly
  | [shape] => shape
  | _ =>
    match shapes.mapM Shape.values? with
    | some values => .enumeration values.flatten.eraseDups
    | none =>
      if shapes.all Shape.isTextual then .string
      else if shapes.all Shape.isBoolean then .boolean
      else .unknown text .nonLiteralUnion

/-- The validator of a union with the given text. Null and leaves for absence and null are taken
from the members to the whole. -/
def unionOf (text : String) (members : List Validator) : Validator :=
  let present := members.filter fun member => !member.isNullOnly
  ⟨unionShape text (present.map Validator.shape), members.any Validator.optional,
    members.any fun member => member.nullable || member.isNullOnly⟩

/-! ### Builders -/

/-- The fields of an object with the given entries. -/
def fieldsOf (env : Environment) (inner : Term → Validator) (entries : List Entry) : List Field :=
  (env.members entries).map fun entry => .declare entry.1 (inner entry.2) false

/-- The validator of a term that is a call, given the validators of the terms inside it. -/
def validatorOfCall (env : Environment) (inner : Term → Validator) (term : Term) (call : Call) :
    Validator :=
  let unclassified : Validator := .ofGap term.text .unclassified
  match call.name.getD "", call.arguments with
  | "string", _ => .ofShape .string
  | "number", _ | "float64", _ => .ofShape .number
  | "boolean", _ => .ofShape .boolean
  | "any", _ => .ofShape .any
  | "null", _ => (Validator.ofGap term.text .nullOnly).admitting false true
  | "id", arguments => .ofShape (.id (arguments.head?.bind env.string?))
  | "literal", literal :: _ =>
    match literalShape? (env.resolve literal) with
    | some shape => .ofShape shape
    | none => unclassified
  | "optional", argument :: _ => (inner argument).admitting true false
  | "nullable", argument :: _ => (inner argument).admitting false true
  | "array", element :: _ => .ofShape (.array (inner element))
  | "record", key :: value :: _ => .ofShape (.record (some (inner key)) (inner value))
  | "object", _ =>
    match env.objectEntries? term with
    | some entries => .ofShape (.object (fieldsOf env inner entries))
    | none => unclassified
  | "union", members => unionOf term.text (members.map inner)
  | "literal", _ | "optional", _ | "nullable", _ | "array", _ | "record", _ => unclassified
  | _, _ => .ofGap term.text .unsupportedBuilder

/-- The validator of a term, with builders read to a depth. -/
def validatorTo (env : Environment) : Nat → Term → Validator
  | 0, term => .ofGap term.text .depthLimit
  | depth + 1, term =>
    let resolved := env.resolve term
    match resolved.call? with
    | some call => validatorOfCall env (validatorTo env depth) resolved call
    | none => .ofGap resolved.text .unclassified

end SwiftBindings
