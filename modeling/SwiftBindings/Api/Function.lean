/-
**Functions of an interface.**

The functions of an interface are found below its roots: a root is an exported value whose type is a
namespace, a property of a namespace is a namespace again or a reference to a function, and a
function is told by the members that such references have. A namespace within itself is not entered
twice.
-/

import SwiftBindings.Failure
import SwiftBindings.Text.Blank
import SwiftBindings.TypeGraph.Resolution

namespace SwiftBindings.Api

open Text TypeGraph

/-- Who may call a function. -/
inductive Visibility where
  /-- Every client. -/
  | everyone
  /-- Other functions only. -/
  | internal
  deriving DecidableEq, Repr

/-- The visibility as a word. -/
def Visibility.text : Visibility → String
  | .everyone => "public"
  | .internal => "internal"

/-- The visibility that a text names; any text but one means internal. -/
def Visibility.ofText (text : String) : Visibility :=
  if text = "public" then .everyone else .internal

/-- What a function does. -/
inductive FunctionKind where
  /-- It reads. -/
  | query
  /-- It writes. -/
  | mutation
  /-- It has effects elsewhere. -/
  | action
  /-- It is of no known kind. -/
  | unknown
  deriving DecidableEq, Repr

/-- The kind as a word. -/
def FunctionKind.text : FunctionKind → String
  | .query => "query"
  | .mutation => "mutation"
  | .action => "action"
  | .unknown => "function"

/-- The kind that a text names. -/
def FunctionKind.ofText (text : String) : FunctionKind :=
  match text with
  | "query" => .query
  | "mutation" => .mutation
  | "action" => .action
  | _ => .unknown

/-- A function of an interface. -/
structure Function where
  /-- The root it was found under. -/
  root : String
  /-- Dotted path below the root. -/
  path : String
  /-- What it does. -/
  kind : FunctionKind
  /-- Who may call it. -/
  visibility : Visibility
  /-- Type of its arguments. -/
  arguments : TypeId
  /-- Type of its result. -/
  result : TypeId
  deriving DecidableEq, Repr

/-- The path with the root in front. -/
def Function.qualified (function : Function) : String :=
  function.root ++ "." ++ function.path

/-- The segments of the path below the root. -/
def Function.segments (function : Function) : List String :=
  TypeGraph.segments function.path

/-! ### References to functions -/

/-- The members of every reference to a function. -/
def sentinels : List String := ["_type", "_visibility", "_args", "_returnType"]

/-- The type has the members of a reference to a function. -/
def isFunctionReference (graph : Graph) (id : TypeId) : Bool :=
  sentinels.all fun name => (graph.property? id name).isSome

/-- The value of a string literal, or the text of another type without quotes at its ends. -/
def literalText (graph : Graph) (id : TypeId) : String :=
  (graph.stringValue? id).getD <|
    String.ofList (trimWhile (fun c => c == '"' || c == '\'') (graph.text id).toList)

/-- The function that a type refers to, found at a path below a root. -/
def functionAt? (graph : Graph) (root : String) (path : List String) (id : TypeId) :
    Option Function := do
  let member (name : String) : Option TypeId := (graph.property? id name).map Property.type
  return {
    root
    path := ".".intercalate path
    kind := .ofText (literalText graph (← member "_type"))
    visibility := .ofText (literalText graph (← member "_visibility"))
    arguments := ← member "_args"
    result := ← member "_returnType" }

/-! ### The walk -/

/-- How many namespaces within each other are entered below a root. -/
def namespaceDepth : Nat := 32

/-- The functions of a namespace at a path below a root, through at most the given number of levels;
`visiting` holds the namespaces around it. -/
def functionsWithin (graph : Graph) (root : String) :
    Nat → List TypeId → List String → TypeId → List Function
  | 0, _, _, _ => []
  | levels + 1, visiting, path, id =>
    if id ∈ visiting then []
    else (graph.properties id).flatMap fun property =>
      let inner := path ++ [property.name]
      if isFunctionReference graph property.type then
        (functionAt? graph root inner property.type).toList
      else if graph.isStructured property.type && !(graph.properties property.type).isEmpty then
        functionsWithin graph root levels (id :: visiting) inner property.type
      else []

/-- The functions below a root of the given type. -/
def functionsBelow (graph : Graph) (root : String) (id : TypeId) : List Function :=
  functionsWithin graph root (namespaceDepth + 1) [] [] id

/-- A root without functions is a failure, unless it is an object without any properties. -/
def checkEmptyRoot (graph : Graph) (root : String) (id : TypeId) : Except Failure Unit :=
  if graph.isStructured id && (graph.properties id).isEmpty then .ok ()
  else .error (.unresolvedRoot root (graph.text id))

/-- The functions below a root, and the graph with the types they refer to. -/
def functionsOfRoot (symbols : Symbols) (graph : Graph) (root : String) :
    Except Failure (List Function × Graph) :=
  match exportType? symbols root graph with
  | (none, _) => .error (.missingExport root)
  | (some id, resolved) => do
    let functions := functionsBelow resolved root id
    if functions.isEmpty then checkEmptyRoot resolved root id
    return (functions, resolved)

/-- The functions below the roots, in order, and the graph with the types they refer to. -/
def functionsOfRoots (symbols : Symbols) (graph : Graph) :
    List String → Except Failure (List Function × Graph)
  | [] => .ok ([], graph)
  | root :: rest => do
    let (first, resolved) ← functionsOfRoot symbols graph root
    let (others, complete) ← functionsOfRoots symbols resolved rest
    return (first ++ others, complete)

end SwiftBindings.Api
