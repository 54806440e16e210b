/-
**From a schema to generated code.**

The tables of a source are read once; the generated file, the dump of the schema and its usage
report are all made from them.
-/

import SwiftBindings.Schema.Bindings
import SwiftBindings.Schema.Dump
import SwiftBindings.Schema.Source
import SwiftBindings.Swift.Layout

namespace SwiftBindings

/-- What is generated for a schema. -/
structure GeneratedSchema where
  /-- The tables. -/
  schema : Schema
  /-- The usage report. -/
  report : UsageReport
  /-- Text of the generated file. -/
  code : String
  /-- Text of the schema's dump. -/
  dump : String
  /-- Text of the usage report. -/
  reportText : String

/-- What is generated for the given tables. -/
def GeneratedSchema.ofSchema (schema : Schema) : GeneratedSchema where
  schema := schema
  report := schema.usage
  code := schema.bindings.text
  dump := schema.json.fileText
  reportText := schema.usage.json.fileText

/-- What is generated for the schema that a text defines. -/
def generateSchema (path source : String) : Except Failure GeneratedSchema :=
  (Schema.read path source).map GeneratedSchema.ofSchema

end SwiftBindings
