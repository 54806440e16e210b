/-
**Generated code for a schema.**

Each table becomes one struct for its documents: the two fields that every document has, then the
declared fields of other names.
-/

import SwiftBindings.Schema.Basic
import SwiftBindings.Swift.Registry

namespace SwiftBindings

open Swift

/-- The fields that every document of a table has. -/
def Table.systemFields (table : Table) : List Field :=
  [.declare "_id" (.ofShape (.id (some table.name))) false,
    .declare "_creationTime" (.ofShape .number) false]

/-- All fields of a table's documents. A declared field cannot replace one that every document
has. -/
def Table.documentFields (table : Table) : List Field :=
  table.systemFields ++ table.fields.filter fun field =>
    field.name != "_id" && field.name != "_creationTime"

/-- The registry with the struct of a table's documents. -/
def Table.register (registry : Registry) (table : Table) : Registry :=
  (registry.renderStruct table.documentFields [table.name, "Document"] .decode).2

/-- The opening comment of a generated file. -/
def generatedHeader (source title : String) (entries : List String) : List String :=
  ["Generated by typebridge from " ++ source ++ ". Do not edit.", "", title] ++
    entries.map ("  " ++ ·)

/-- The generated file of a schema. -/
def Schema.bindings (schema : Schema) : File :=
  (schema.tables.foldl Table.register .empty).file
    (generatedHeader schema.source "Tables:" (schema.tables.map Table.name)) []

end SwiftBindings
