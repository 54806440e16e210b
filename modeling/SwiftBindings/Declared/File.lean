/-
**Declaration files.**

The declared names of a declaration file, read from its text.
-/

import SwiftBindings.Failure
import SwiftBindings.Script.Module
import SwiftBindings.TypeGraph.Symbols

namespace SwiftBindings.Declared

open Script TypeGraph

/-- The declarations of a text. -/
def readDeclarations (source : String) : Except Failure (List Item) :=
  match readModule source with
  | .ok items => .ok (declaredItems items)
  | .error position => .error (.syntaxError position)

/-- The declared names of a text. -/
def readSymbols (source : String) : Except Failure Symbols :=
  (readDeclarations source).map Symbols.ofItems

end SwiftBindings.Declared
