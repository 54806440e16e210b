/-
**Generated code for an interface.**

Each selected function gets a struct for its arguments and a type for its result: a struct when the
result is an object that is always present, and another name for the type otherwise. Names derive
from the path of the function, which starts with its root unless that is the first root.
-/

import SwiftBindings.Api.Selection
import SwiftBindings.Reduction.Reduce
import SwiftBindings.Schema.Bindings

namespace SwiftBindings.Api

open Swift TypeGraph Reduction

/-- A selected function with the validators of its types. -/
structure FunctionShape where
  /-- The function. -/
  function : Function
  /-- Segments that names derive from. -/
  path : List String
  /-- Validator of the arguments. -/
  arguments : Validator
  /-- Validator of the result. -/
  result : Validator

/-- The segments that the names of a function's types derive from. -/
def namePath (roots : List String) (function : Function) : List String :=
  (if roots.head? = some function.root then [] else [function.root]) ++ function.segments

/-- A function with the validators of its types. -/
def FunctionShape.ofFunction (graph : Graph) (roots : List String) (function : Function) :
    FunctionShape where
  function := function
  path := namePath roots function
  arguments := reduce graph function.arguments
  result := reduce graph function.result

/-- The fields of a function's arguments. Arguments that are no object have none. -/
def FunctionShape.argumentFields (shape : FunctionShape) : List Field :=
  match shape.arguments.shape with
  | .object fields => fields
  | _ => []

/-- The fields of a result that is an object and always present. -/
def FunctionShape.resultFields? (shape : FunctionShape) : Option (List Field) :=
  match shape.result.shape with
  | .object fields => if shape.result.admitsAbsence then none else some fields
  | _ => none

/-- The registry with the types of a function, and the other name for the type of its result where
it has one. -/
def FunctionShape.register (registry : Registry) (shape : FunctionShape) :
    List Alias × Registry :=
  let registered :=
    (registry.renderStruct shape.argumentFields (shape.path ++ ["Args"]) .encode).2
  let resultPath := shape.path ++ ["Return"]
  match shape.resultFields? with
  | some fields => ([], (registered.renderStruct fields resultPath .decode).2)
  | none =>
    let (rendered, complete) := registered.render shape.result shape.path .decode
    ([⟨typeName resultPath, rendered.type⟩], complete)

/-- The registry with the types of functions, and the other names for the types of results. -/
def registerAll (registry : Registry) : List FunctionShape → List Alias × Registry
  | [] => ([], registry)
  | shape :: rest =>
    let (first, registered) := shape.register registry
    let (others, complete) := registerAll registered rest
    (first ++ others, complete)

/-- The generated file of an interface. -/
def bindings (source : String) (shapes : List FunctionShape) : File :=
  let (aliases, registry) := registerAll .empty shapes
  registry.file
    (generatedHeader source "Functions:" (shapes.map fun shape =>
      shape.function.kind.text ++ " " ++ shape.function.qualified))
    aliases

end SwiftBindings.Api
