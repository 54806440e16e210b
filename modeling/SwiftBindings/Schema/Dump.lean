/-
**Schemas and reports as JSON.**

The form in which a schema and its usage report are written out. The kind of a validator comes
first, its leaves for absence and null come last and only where they are given.
-/

import SwiftBindings.Json.Basic
import SwiftBindings.Schema.Usage

namespace SwiftBindings

open Json (Value)

/-! ### Validators and fields -/

/-- The members that state the leaves of a validator. -/
def leaveMembers (optional nullable : Bool) : List (String × Value) :=
  (if optional then [("optional", .bool true)] else []) ++
    (if nullable then [("nullable", .bool true)] else [])

mutual

/-- The members that state a shape, the kind first. -/
def Shape.members : Shape → List (String × Value)
  | .id none => [("kind", .string "id")]
  | .id (some table) => [("kind", .string "id"), ("table", .string table)]
  | .array element => [("kind", .string "array"), ("element", element.json)]
  | .record none value => [("kind", .string "record"), ("value", value.json)]
  | .record (some key) value =>
    [("kind", .string "record"), ("key", key.json), ("value", value.json)]
  | .object fields => [("kind", .string "object"), ("fields", .array (Field.jsons fields))]
  | .enumeration values =>
    [("kind", .string "enum"), ("values", .array (values.map Value.string))]
  | .unknown text gap =>
    [("kind", .string "unknown"), ("text", .string text), ("reason", .string gap.tag)]
  | .string => [("kind", .string "string")]
  | .number => [("kind", .string "number")]
  | .boolean => [("kind", .string "boolean")]
  | .any => [("kind", .string "any")]

/-- A validator as JSON. -/
def Validator.json : Validator → Value
  | ⟨shape, optional, nullable⟩ => .object (shape.members ++ leaveMembers optional nullable)

/-- Fields as JSON, in order. -/
def Field.jsons : List Field → List Value
  | [] => []
  | ⟨name, optional, nullable, schema⟩ :: rest =>
    .object [("name", .string name), ("optional", .bool optional), ("nullable", .bool nullable),
      ("schema", schema.json)] :: Field.jsons rest

end

/-! ### Schemas -/

/-- An index as JSON. -/
def Index.json (index : Index) : Value :=
  .object [("kind", .string index.kind.tag), ("name", .string index.name),
    ("fields", .array (index.fields.map Value.string))]

/-- A table as JSON; the member for the indexes is left out where there are none. -/
def Table.json (table : Table) : Value :=
  .object ([("name", .string table.name), ("fields", .array (Field.jsons table.fields))] ++
    if table.indexes.isEmpty then [] else [("indexes", .array (table.indexes.map Index.json))])

/-- A schema as JSON. -/
def Schema.json (schema : Schema) : Value :=
  .object [("source", .string schema.source), ("tables", .array (schema.tables.map Table.json))]

/-! ### Usage reports -/

/-- An issue as JSON. -/
def Issue.json (issue : Issue) : Value :=
  .object [("table", .string issue.table), ("field", .string issue.path),
    ("reason", .string issue.reason)]

/-- A usage report as JSON. -/
def UsageReport.json (report : UsageReport) : Value :=
  .object [
    ("kinds", .object (report.kinds.map fun entry => (entry.1, .number entry.2))),
    ("issues", .array (report.issues.map Issue.json))]

end SwiftBindings
