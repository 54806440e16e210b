/-
**Types of row identifiers.**

A type is the identifier of a row when its text names one of the identifier types with an argument,
or when it is a string that carries the brand of a table. The table is known when the argument or
the brand is a string literal.
-/

import SwiftBindings.Text.Alphanumeric
import SwiftBindings.Text.Blank
import SwiftBindings.Text.Cut
import SwiftBindings.TypeGraph.Basic

namespace SwiftBindings.Reduction

open Text TypeGraph

/-! ### By text -/

/-- The names of the identifier types. -/
def identifierNames : List String := ["Id", "GenericId"]

/-- A segment that may stand in front of the name of a type. -/
def isQualifier (segment : List Char) : Bool :=
  !segment.isEmpty && segment.all fun c => isAlphanumeric c || c == '_' || c == '$'

/-- The last segment of a dotted name is an identifier type, and the segments in front may qualify
it. -/
def namesIdentifier (name : List Char) : Bool :=
  let segments := name.splitOnP (· == '.')
  segments.dropLast.all isQualifier &&
    (segments.getLast?.any fun last => String.ofList last ∈ identifierNames)

/-- The text of the argument of an identifier type. -/
def identifierArgument? (text : String) : Option (List Char) := do
  let (name, rest) ← cutAt? '<' text.toList
  let argument ← beforeLast? '>' rest
  if namesIdentifier name then some (trimWhile isBlank argument) else none

/-- The text between quotes of one kind. -/
def unquoted? (chars : List Char) : Option String :=
  match chars with
  | first :: rest =>
    if (first = '"' ∨ first = '\'') ∧ rest.getLast? = some first then
      some (String.ofList rest.dropLast)
    else none
  | [] => none

/-! ### By brand -/

/-- The property that brands a string with a table. -/
def brandName : String := "__tableName"

/-- The table of a part that is an object type with the brand. -/
def partTable? (graph : Graph) (part : TypeId) : Option (Option String) :=
  match graph.kind part with
  | .object shape =>
    (shape.properties.find? fun property => property.name == brandName).map fun property =>
      graph.stringValue? property.type
  | _ => none

/-- The table of an intersection of the string type with a branded object type. -/
def brandedTable? (graph : Graph) (id : TypeId) : Option (Option String) :=
  match graph.kind id with
  | .intersection parts =>
    if parts.any fun part => graph.kind part == .primitive .string then
      parts.findSome? (partTable? graph)
    else none
  | _ => none

/-- The table of an identifier of rows, where the type is one; the table may be unknown. -/
def identifierTable? (graph : Graph) (id : TypeId) : Option (Option String) :=
  match identifierArgument? (graph.text id) with
  | some argument => some (unquoted? argument)
  | none => brandedTable? graph id

end SwiftBindings.Reduction
