/-
**Validators.**

A validator says which values are accepted: a shape, and whether the value may be absent or null.
Both sources of types, declarations and table definitions, end in validators, and all generated code
starts from them.
-/

namespace SwiftBindings

/-- Why the shape of a value is unknown. -/
inductive Gap where
  /-- No rule applied. -/
  | unclassified
  /-- The type contains itself. -/
  | cycle
  /-- The type is nested too deeply. -/
  | depthLimit
  /-- An alternative of a union is not a string literal. -/
  | nonLiteralUnion
  /-- Nothing but null or an absent value is accepted. -/
  | nullOnly
  /-- The validator expression is not one of the known ones. -/
  | unsupportedBuilder
  deriving DecidableEq, Repr

/-- The gap in words, as the usage report has it. -/
def Gap.label : Gap → String
  | .unclassified => "unclassified"
  | .cycle => "cycle"
  | .depthLimit => "depth-limit"
  | .nonLiteralUnion => "non-literal union"
  | .nullOnly => "null-only"
  | .unsupportedBuilder => "unsupported builder"

/-- The gap as one hyphenated word, as data has it. -/
def Gap.tag : Gap → String
  | .unclassified => "unclassified"
  | .cycle => "cycle"
  | .depthLimit => "depth-limit"
  | .nonLiteralUnion => "non-literal-union"
  | .nullOnly => "null-only"
  | .unsupportedBuilder => "unsupported-builder"

/-- The gap with the given tag. -/
def Gap.ofTag? (tag : String) : Option Gap :=
  [Gap.unclassified, .cycle, .depthLimit, .nonLiteralUnion, .nullOnly, .unsupportedBuilder].find?
    fun gap => gap.tag == tag

mutual

/-- What kind of value is accepted. -/
inductive Shape where
  /-- Strings. -/
  | string
  /-- Numbers. -/
  | number
  /-- Truth values. -/
  | boolean
  /-- Identifiers of rows, of a known table or of any. -/
  | id (table : Option String)
  /-- Lists. -/
  | array (element : Validator)
  /-- Mappings from strings. The keys' validator is known only in table definitions. -/
  | record (key : Option Validator) (value : Validator)
  /-- Objects with named fields, in declaration order. -/
  | object (fields : List Field)
  /-- One of a list of string literals. -/
  | enumeration (values : List String)
  /-- Any value. -/
  | any
  /-- A value of unknown shape, with the source text and the reason. -/
  | unknown (text : String) (gap : Gap)

/-- Which values are accepted. -/
structure Validator where
  /-- What kind of value. -/
  shape : Shape
  /-- The value may be absent. -/
  optional : Bool
  /-- The value may be null. -/
  nullable : Bool

/-- A named field of an object. -/
structure Field where
  /-- Key of the field. -/
  name : String
  /-- The key may be absent. -/
  optional : Bool
  /-- The value may be null. -/
  nullable : Bool
  /-- Which values are accepted. -/
  schema : Validator

end

/-! ### Building validators -/

/-- A validator for values that are present. -/
def Validator.ofShape (shape : Shape) : Validator :=
  ⟨shape, false, false⟩

/-- A validator for values of unknown shape. -/
def Validator.ofGap (text : String) (gap : Gap) : Validator :=
  .ofShape (.unknown text gap)

/-- The validator that accepts an absent value or null as well, where asked to. -/
def Validator.admitting (optional nullable : Bool) (validator : Validator) : Validator :=
  ⟨validator.shape, validator.optional || optional, validator.nullable || nullable⟩

/-- The validator without its leave for absent values and null. -/
def Validator.required (validator : Validator) : Validator :=
  .ofShape validator.shape

/-- A field that may be absent where its validator or its declaration says so. -/
def Field.declare (name : String) (schema : Validator) (optional : Bool) : Field :=
  ⟨name, schema.optional || optional, schema.nullable, schema⟩

/-! ### Observations -/

/-- The name of the kind of value. -/
def Shape.kindName : Shape → String
  | .string => "string"
  | .number => "number"
  | .boolean => "boolean"
  | .id _ => "id"
  | .array _ => "array"
  | .record _ _ => "record"
  | .object _ => "object"
  | .enumeration _ => "enum"
  | .any => "any"
  | .unknown _ _ => "unknown"

/-- The shape says nothing about the value. -/
def Shape.isUntyped : Shape → Bool
  | .any | .unknown _ _ => true
  | _ => false

/-- The value may be absent or null. -/
def Validator.admitsAbsence (validator : Validator) : Bool :=
  validator.optional || validator.nullable

/-- The field may be absent or null. -/
def Field.admitsAbsence (field : Field) : Bool :=
  field.optional || field.nullable

/-! ### Small laws -/

@[simp] theorem Validator.shape_ofShape (shape : Shape) : (Validator.ofShape shape).shape = shape :=
  rfl

@[simp] theorem Validator.shape_admitting (optional nullable : Bool) (validator : Validator) :
    (validator.admitting optional nullable).shape = validator.shape := rfl

end SwiftBindings
