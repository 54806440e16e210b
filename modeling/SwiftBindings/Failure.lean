/-
**Failures.**

Why nothing is generated from a source. Each failure is a cause of its own; its message names the
source by its path.
-/

import SwiftBindings.Text.Position

namespace SwiftBindings

open Text

/-- What is wrong with a schema definition. -/
inductive SchemaFault where
  /-- The schema is defined without an argument. -/
  | noArgument
  /-- The argument of the schema definition is no object. -/
  | notObject
  /-- A table is defined by something else than a table definition. -/
  | notTable (name : String)
  /-- The argument of a table definition is no object. -/
  | noTableObject (name : String)
  /-- A table is an index of itself: its chain of index calls has no beginning. -/
  | endless
  deriving DecidableEq, Repr

/-- The fault in words. -/
def SchemaFault.message : SchemaFault → String
  | .noArgument => "defineSchema(...) has no arguments"
  | .notObject => "defineSchema(...) expects an object literal"
  | .notTable name => "table \x60" ++ name ++ "\x60 is not a defineTable(...) call"
  | .noTableObject name => "defineTable(...) for \x60" ++ name ++ "\x60 expects an object"
  | .endless => "a table is an index of itself"

/-- Why nothing is generated from a source. -/
inductive Failure where
  /-- The source cannot be read beyond a position. -/
  | syntaxError (position : Position)
  /-- A required value is not exported. -/
  | missingExport (name : String)
  /-- A root holds no functions; its type has the given text. -/
  | unresolvedRoot (root text : String)
  /-- The source defines no schema. -/
  | missingSchema
  /-- The schema definition has a fault. -/
  | invalidSchema (fault : SchemaFault)
  /-- No function is selected. -/
  | emptySelection
  deriving DecidableEq, Repr

/-- The failure in words. A syntax error is told by its place alone. -/
def Failure.message (path : String) : Failure → String
  | .syntaxError position =>
    path ++ ":" ++ toString position.line ++ ":" ++ toString position.column
  | .missingExport name => "Required export \x60" ++ name ++ "\x60 not found in " ++ path
  | .unresolvedRoot root text =>
    "Root \x60" ++ root ++ "\x60 in " ++ path ++
      " contains no function references; it resolves to \x60" ++ text ++ "\x60"
  | .missingSchema => "No defineSchema(...) call found in " ++ path
  | .invalidSchema fault => "Invalid schema in " ++ path ++ ": " ++ fault.message
  | .emptySelection =>
    "No functions selected from " ++ path ++ "; check the include/exclude lists"

end SwiftBindings
