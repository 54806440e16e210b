/-
**The grammar as a record of parsers.**

The parts of the grammar contain each other: types occur in expressions, expressions in types, both
in statements. Each part is written over a record of parsers for the parts nested inside it, and the
record for a depth of nesting is built from the record for the depth below.
-/

import SwiftBindings.Script.Parser
import SwiftBindings.Script.Tree

namespace SwiftBindings.Script

/-- Parsers for the parts of the grammar that occur inside others. -/
structure Grammar where
  /-- A type. -/
  type : Parser TypeTree
  /-- A type that is not a conditional one. The flag tells that it stands as the bound of a
  condition, where an inferred type may have a bound of its own. -/
  unconditionalType : Bool → Parser TypeTree
  /-- An expression without commas. -/
  expression : Parser TermTree
  /-- An expression without commas between the question mark and the colon of a condition. -/
  branch : Parser TermTree
  /-- The target of a declaration: a name, or a pattern of names. -/
  pattern : Parser (Option String)
  /-- A statement. -/
  statement : Parser (List StatementTree)
  /-- A statement at the top level of a module. -/
  moduleItem : Parser (List StatementTree)

/-- The grammar without nesting. -/
def Grammar.flat : Grammar where
  type := unexpected
  unconditionalType := fun _ => unexpected
  expression := unexpected
  branch := unexpected
  pattern := unexpected
  statement := unexpected
  moduleItem := unexpected

end SwiftBindings.Script
