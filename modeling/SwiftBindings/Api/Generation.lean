/-
**From a declaration file to generated code.**

The functions below the roots of a declaration file are found and selected, their types are reduced
to validators, and the validators are rendered.
-/

import SwiftBindings.Api.Bindings
import SwiftBindings.Declared.File
import SwiftBindings.Swift.Layout

namespace SwiftBindings.Api

open Swift TypeGraph

/-- What is generated for an interface. -/
structure Generated where
  /-- Qualified paths of the selected functions. -/
  functions : List String
  /-- The generated file. -/
  file : File

/-- The functions below the roots of a declaration file, and the graph with their types. -/
def discover (source : String) (roots : List String) : Except Failure (List Function × Graph) := do
  let symbols ← Declared.readSymbols source
  functionsOfRoots symbols .initial roots

/-- The generated code for the selected functions of a declaration file. -/
def generate (path source : String) (roots : List String) (selection : Selection) :
    Except Failure Generated := do
  let (functions, graph) ← discover source roots
  let selected := selection.select roots functions
  if selected.isEmpty then .error .emptySelection
  else
    let shapes := selected.map (FunctionShape.ofFunction graph roots)
    return ⟨selected.map Function.qualified, bindings path shapes⟩

end SwiftBindings.Api
