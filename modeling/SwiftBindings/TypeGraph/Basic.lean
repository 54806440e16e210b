/-
**Graphs of types.**

A resolved type is a node of a graph, named by its place. A node has a structure, whose parts are
again places, and a text. Types that contain themselves are cycles of the graph, so every walk over
it carries a bound or the nodes it has passed.
-/

import SwiftBindings.Declared.Basic

namespace SwiftBindings.TypeGraph

open Declared

/-- The place of a node. -/
abbrev TypeId := Nat

/-- A property of an object type. -/
structure Property where
  /-- Key of the property. -/
  name : String
  /-- Its type. -/
  type : TypeId
  /-- The key may be absent. -/
  optional : Bool
  deriving DecidableEq, Repr

/-- The properties of an object type and the type of all further ones. -/
structure ObjectShape where
  /-- Properties in order of declaration. -/
  properties : List Property
  /-- Type of the values under any other string. -/
  index : Option TypeId
  deriving DecidableEq, Repr

/-- The structure of a type. -/
inductive Kind where
  /-- A type that has a word of its own. -/
  | primitive (keyword : Keyword)
  /-- One string. -/
  | stringLiteral (value : String)
  /-- One number, by its source text. -/
  | numberLiteral (text : String)
  /-- One truth value. -/
  | booleanLiteral (value : Bool)
  /-- A list type. -/
  | array (element : TypeId)
  /-- A list type with one type for each place. -/
  | tuple (elements : List TypeId)
  /-- Alternatives. -/
  | union (members : List TypeId)
  /-- Parts that all hold. -/
  | intersection (parts : List TypeId)
  /-- An object type. -/
  | object (shape : ObjectShape)
  /-- A name that nothing declares. -/
  | unresolved
  /-- A type whose structure is not followed. -/
  | opaqueType
  /-- A declared type that is still being resolved. -/
  | pending
  deriving DecidableEq, Repr

/-- A type with its text. -/
structure Node where
  /-- Structure of the type. -/
  kind : Kind
  /-- Text of the type. -/
  text : String
  deriving DecidableEq, Repr

/-- A declared type with its arguments. -/
structure Instance where
  /-- Name of the declared type. -/
  name : String
  /-- Type arguments. -/
  arguments : List TypeId
  deriving DecidableEq, Repr

/-- A graph under construction: its nodes, and which of them stand for what has been resolved. -/
structure Graph where
  /-- Nodes by place. -/
  nodes : Array Node
  /-- Nodes of keywords. -/
  keywords : List (Keyword × TypeId)
  /-- Nodes of string literals. -/
  literals : List (String × TypeId)
  /-- Nodes of declared types with their arguments. -/
  instances : List (Instance × TypeId)
  /-- Nodes of the types of values. -/
  values : List (String × TypeId)
  /-- Values whose types are being resolved. -/
  resolving : List String
  /-- Number of declared types that are being resolved. -/
  depth : Nat
  deriving Repr

/-- The place of the type of methods. -/
def methodType : TypeId := 0

/-- The graph before anything is resolved: the type of methods alone. -/
def Graph.initial : Graph where
  nodes := #[⟨.opaqueType, "(method)"⟩]
  keywords := []
  literals := []
  instances := []
  values := []
  resolving := []
  depth := 0

/-! ### Nodes -/

/-- The structure of a type. -/
def Graph.kind (graph : Graph) (id : TypeId) : Kind :=
  (graph.nodes[id]?.map Node.kind).getD .opaqueType

/-- The text of a type. -/
def Graph.text (graph : Graph) (id : TypeId) : String :=
  (graph.nodes[id]?.map Node.text).getD ""

/-- The alternatives of a union. -/
def Graph.unionMembers? (graph : Graph) (id : TypeId) : Option (List TypeId) :=
  match graph.kind id with
  | .union members => some members
  | _ => none

/-- The element of a list type. -/
def Graph.arrayElement? (graph : Graph) (id : TypeId) : Option TypeId :=
  match graph.kind id with
  | .array element => some element
  | _ => none

/-- The value of a string literal. -/
def Graph.stringValue? (graph : Graph) (id : TypeId) : Option String :=
  match graph.kind id with
  | .stringLiteral value => some value
  | _ => none

/-- The type is an object type or an intersection. -/
def Graph.isStructured (graph : Graph) (id : TypeId) : Bool :=
  match graph.kind id with
  | .object _ | .intersection _ => true
  | _ => false

/-! ### Properties -/

/-- Members that strings inherit. -/
def stringMembers : List String :=
  ["length", "charAt", "charCodeAt", "concat", "indexOf", "lastIndexOf", "localeCompare", "match",
    "replace", "search", "slice", "split", "substring", "toLowerCase", "toUpperCase", "trim",
    "toString", "valueOf", "__@iterator"]

/-- Members that numbers inherit. -/
def numberMembers : List String :=
  ["toFixed", "toExponential", "toPrecision", "toString", "toLocaleString", "valueOf"]

/-- Members that truth values inherit. -/
def booleanMembers : List String := ["valueOf"]

/-- Inherited members as properties. -/
def inherited (names : List String) : List Property :=
  names.map fun name => ⟨name, methodType, false⟩

/-- The properties followed by those of another list whose names are not among them. -/
def mergeProperties (first second : List Property) : List Property :=
  second.foldl (fun merged property =>
    if merged.any fun other => other.name == property.name then merged
    else merged ++ [property]) first

/-- The properties with one in place of that of its name, or behind them. -/
def upsertProperty : List Property → Property → List Property
  | [], property => [property]
  | first :: rest, property =>
    if first.name = property.name then property :: rest else first :: upsertProperty rest property

/-- How many intersections within each other a walk over properties goes through. -/
def walkDepth : Nat := 32

/-- The properties of a type through at most the given number of levels. The first part of an
intersection that has a property decides on it. -/
def Graph.propertiesWithin (graph : Graph) : Nat → TypeId → List Property
  | 0, _ => []
  | levels + 1, id =>
    match graph.kind id with
    | .object shape => shape.properties
    | .intersection parts =>
      parts.foldl (fun merged part =>
        mergeProperties merged (graph.propertiesWithin levels part)) []
    | .primitive .string | .stringLiteral _ => inherited stringMembers
    | .primitive .number | .numberLiteral _ => inherited numberMembers
    | .primitive .boolean | .booleanLiteral _ => inherited booleanMembers
    | _ => []

/-- The properties of a type, with the members that its primitive parts inherit. -/
def Graph.properties (graph : Graph) (id : TypeId) : List Property :=
  graph.propertiesWithin (walkDepth + 1) id

/-- The type of further properties through at most the given number of levels. -/
def Graph.indexWithin (graph : Graph) : Nat → TypeId → Option TypeId
  | 0, _ => none
  | levels + 1, id =>
    match graph.kind id with
    | .object shape => shape.index
    | .intersection parts => parts.findSome? fun part => graph.indexWithin levels part
    | _ => none

/-- The type of further properties of a type. -/
def Graph.index? (graph : Graph) (id : TypeId) : Option TypeId :=
  graph.indexWithin (walkDepth + 1) id

/-- The property of a name. -/
def Graph.property? (graph : Graph) (id : TypeId) (name : String) : Option Property :=
  (graph.properties id).find? fun property => property.name == name

/-- The value of the string literal that is the type of a property. -/
def Graph.literalProperty? (graph : Graph) (id : TypeId) (name : String) : Option String :=
  (graph.property? id name).bind fun property => graph.stringValue? property.type

end SwiftBindings.TypeGraph
