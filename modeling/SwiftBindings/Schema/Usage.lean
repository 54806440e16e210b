/-
**Usage of validators.**

A survey walks all fields of a schema. It lists the name of each validator's kind and of each
field's leave for absence or null, and an issue for each place whose type the generated code cannot
express. The usage report counts the names.
-/

import SwiftBindings.Schema.Basic

namespace SwiftBindings

/-- A place whose type the generated code cannot express. -/
structure Issue where
  /-- The table. -/
  table : String
  /-- Dotted path below the table; the elements of a list add `[]`, the values of a mapping braces.
  -/
  path : String
  /-- What is known about the place. -/
  reason : String
  deriving DecidableEq, Repr

/-- What a walk over validators finds, in the order of the walk. -/
structure Survey where
  /-- Names of kinds and of leaves. -/
  names : List String
  /-- Issues. -/
  issues : List Issue
  deriving DecidableEq, Repr

/-- Two walks one after the other. -/
instance : Append Survey :=
  ⟨fun first second => ⟨first.names ++ second.names, first.issues ++ second.issues⟩⟩

/-- The walk that finds nothing. -/
def Survey.empty : Survey := ⟨[], []⟩

/-- The walk that finds names only. -/
def Survey.ofNames (names : List String) : Survey := ⟨names, []⟩

/-- The walk that finds one issue. -/
def Survey.ofIssue (table path reason : String) : Survey := ⟨[], [⟨table, path, reason⟩]⟩

/-! ### The walk -/

/-- The path of a field below another path; below the table itself it is the field's name. -/
def fieldPath (parent name : String) : String :=
  if parent.isEmpty then name else parent ++ "." ++ name

/-- The names of the leaves a field has. -/
def Field.leaveNames (field : Field) : List String :=
  (if field.optional then ["optional"] else []) ++ (if field.nullable then ["nullable"] else [])

mutual

/-- The walk over the inner validators of a shape. -/
def Shape.survey (table path : String) : Shape → Survey
  | .any => .ofIssue table path "any"
  | .unknown text gap => .ofIssue table path (gap.label ++ ": " ++ text)
  | .array element => element.survey table (path ++ "[]")
  | .record _ value =>
    if value.shape.isUntyped then
      .ofIssue table path "record with untyped value" ++ .ofNames [value.shape.kindName]
    else value.survey table (path ++ "\x7b\x7d")
  | .object fields => Field.surveyAll table path fields
  | _ => .empty

/-- The walk over a validator. -/
def Validator.survey (table path : String) : Validator → Survey
  | ⟨shape, _, _⟩ => .ofNames [shape.kindName] ++ shape.survey table path

/-- The walk over fields, in order. -/
def Field.surveyAll (table path : String) : List Field → Survey
  | [] => .empty
  | ⟨name, optional, nullable, schema⟩ :: rest =>
    .ofNames (Field.leaveNames ⟨name, optional, nullable, schema⟩) ++
      schema.survey table (fieldPath path name) ++ Field.surveyAll table path rest

end

/-- The walk over the fields of a table. -/
def Table.survey (table : Table) : Survey :=
  Field.surveyAll table.name "" table.fields

/-- The walk over all tables. -/
def Schema.survey (schema : Schema) : Survey :=
  schema.tables.foldl (fun found table => found ++ table.survey) .empty

/-! ### The report -/

/-- How often each name occurs, and the issues. -/
structure UsageReport where
  /-- Names in increasing order, each with its number of occurrences. -/
  kinds : List (String × Nat)
  /-- Issues in the order of the walk. -/
  issues : List Issue
  deriving DecidableEq, Repr

/-- The distinct names in increasing order, each with its number of occurrences. -/
def tally (names : List String) : List (String × Nat) :=
  (names.eraseDups.mergeSort fun first second => decide (first ≤ second)).map fun name =>
    (name, names.count name)

/-- The usage report of a schema. -/
def Schema.usage (schema : Schema) : UsageReport :=
  ⟨tally schema.survey.names, schema.survey.issues⟩

end SwiftBindings
