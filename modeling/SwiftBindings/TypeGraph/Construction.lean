/-
**Nodes of a graph and their texts.**

Every step adds nodes at the end of a graph and answers the place of one. Keywords and string
literals have one node each, all other types a node for each time they are built. The text of a type
is put together from the texts of its parts.
-/

import SwiftBindings.TypeGraph.Basic

namespace SwiftBindings.TypeGraph

open Declared

/-- A step that may add to a graph. -/
abbrev Building := StateM Graph

/-! ### Texts -/

/-- The texts of types with a separator between them. -/
def Graph.joinedTexts (graph : Graph) (ids : List TypeId) (separator : String) : String :=
  separator.intercalate (ids.map graph.text)

/-- The text of a name with arguments. -/
def Graph.referenceText (graph : Graph) (name : String) (arguments : List TypeId) : String :=
  if arguments.isEmpty then name else name ++ "<" ++ graph.joinedTexts arguments ", " ++ ">"

/-- The text of a property. -/
def Graph.propertyText (graph : Graph) (property : Property) : String :=
  property.name ++ (if property.optional then "?" else "") ++ ": " ++ graph.text property.type

/-- The text of an object type. -/
def Graph.objectText (graph : Graph) (shape : ObjectShape) : String :=
  let index := match shape.index with
    | some value => ["[key: string]: " ++ graph.text value]
    | none => []
  let parts := shape.properties.map graph.propertyText ++ index
  if parts.isEmpty then "\x7b\x7d" else "\x7b " ++ "; ".intercalate parts ++ " \x7d"

/-- The text of a list of elements with the given text, in parentheses where the text has a blank
and does not start with a brace. -/
def arrayText (element : String) : String :=
  if ' ' ∈ element.toList ∧ element.toList.head? ≠ some '\x7b' then "(" ++ element ++ ")[]"
  else element ++ "[]"

/-- A character as a string literal has it. -/
def quoteChar (c : Char) : List Char :=
  if c = '\\' ∨ c = '"' then ['\\', c] else [c]

/-- The text of a string literal. -/
def literalText (value : String) : String :=
  "\"" ++ String.ofList (value.toList.flatMap quoteChar) ++ "\""

/-! ### Adding nodes -/

/-- Adds a node and answers its place. -/
def allocate (kind : Kind) (text : String) : Building TypeId := fun graph =>
  (graph.nodes.size, { graph with nodes := graph.nodes.push ⟨kind, text⟩ })

/-- The node of a keyword. -/
def keywordType (keyword : Keyword) : Building TypeId := do
  match (← get).keywords.lookup keyword with
  | some id => return id
  | none =>
    let id ← allocate (.primitive keyword) keyword.text
    modify fun graph => { graph with keywords := (keyword, id) :: graph.keywords }
    return id

/-- The node of a string literal. -/
def stringLiteralType (value : String) : Building TypeId := do
  match (← get).literals.lookup value with
  | some id => return id
  | none =>
    let id ← allocate (.stringLiteral value) (literalText value)
    modify fun graph => { graph with literals := (value, id) :: graph.literals }
    return id

/-- A type that nothing is known of but its text. -/
def unresolvedType (text : String) : Building TypeId :=
  allocate .unresolved text

/-- A type whose structure is not followed. -/
def opaqueNode (text : String) : Building TypeId :=
  allocate .opaqueType text

/-- A list type. -/
def arrayType (element : TypeId) : Building TypeId := do
  allocate (.array element) (arrayText ((← get).text element))

/-- A tuple. -/
def tupleType (elements : List TypeId) : Building TypeId := do
  allocate (.tuple elements) ("[" ++ (← get).joinedTexts elements ", " ++ "]")

/-- The alternatives that a member of a union brings: those of a union, or the member itself. -/
def Graph.alternatives (graph : Graph) (id : TypeId) : List TypeId :=
  (graph.unionMembers? id).getD [id]

/-- A union of alternatives. -/
def unionType (members : List TypeId) : Building TypeId := do
  allocate (.union members) ((← get).joinedTexts members " | ")

/-- An intersection. -/
def intersectionType (parts : List TypeId) : Building TypeId := do
  allocate (.intersection parts) ((← get).joinedTexts parts " & ")

/-- An object type. -/
def objectType (shape : ObjectShape) : Building TypeId := do
  allocate (.object shape) ((← get).objectText shape)

/-! ### Types that every file can refer to -/

/-- The keys that a type of keys lists, when it is a string literal or a union of them. -/
def Graph.literalKeys? (graph : Graph) (key : TypeId) : Option (List String) :=
  match graph.kind key with
  | .stringLiteral value => some [value]
  | .union members => members.mapM graph.stringValue?
  | _ => none

/-- A mapping: an object with the listed keys, or one with any string as a key. -/
def recordType (key value : TypeId) : Building TypeId := do
  let graph ← get
  let text := "Record<" ++ graph.text key ++ ", " ++ graph.text value ++ ">"
  let shape : ObjectShape := match graph.literalKeys? key with
    | some names => ⟨names.map fun name => ⟨name, value, false⟩, none⟩
    | none => ⟨[], some value⟩
  allocate (.object shape) text

/-- What a type does to the presence of the properties of another. -/
inductive PresenceChange where
  /-- All may be absent. -/
  | partially
  /-- None may be absent. -/
  | required
  /-- All stay as they are. -/
  | unchanged
  deriving DecidableEq, Repr

/-- The type that changes the presence of properties in this way, by its name. -/
def PresenceChange.ofName? (name : String) : Option PresenceChange :=
  match name with
  | "Partial" => some .partially
  | "Required" => some .required
  | "Readonly" => some .unchanged
  | _ => none

/-- The property with its presence changed. -/
def PresenceChange.apply (change : PresenceChange) (property : Property) : Property :=
  { property with optional := match change with
    | .partially => true
    | .required => false
    | .unchanged => property.optional }

/-- The properties of a type with their presence changed. A type without any stays unresolved. -/
def presenceType (name : String) (change : PresenceChange) (target : TypeId) :
    Building TypeId := do
  let graph ← get
  let text := name ++ "<" ++ graph.text target ++ ">"
  let properties := graph.properties target
  let index := graph.index? target
  if properties.isEmpty && index.isNone then unresolvedType text
  else allocate (.object ⟨properties.map change.apply, index⟩) text

/-- A union without null and undefined. A single alternative that is left stands for itself. -/
def nonNullableType (target : TypeId) : Building TypeId := do
  let graph ← get
  match graph.unionMembers? target with
  | none => return target
  | some members =>
    let kept := members.filter fun member =>
      graph.kind member != .primitive .null && graph.kind member != .primitive .undefined
    match kept with
    | [single] => return single
    | _ => unionType kept

/-! ### Filtering functions -/

/-- The type exposes what marks a reference to a function. -/
def Graph.isMarkedReference (graph : Graph) (id : TypeId) : Bool :=
  ["_type", "_visibility"].all fun name => (graph.property? id name).isSome

/-- The properties whose types are kept, each with the type that is kept of it. -/
def keepProperties (keep : TypeId → Building (Option TypeId)) :
    List Property → Building (List Property)
  | [] => return []
  | property :: rest => do
    match ← keep property.type with
    | some type => return { property with type } :: (← keepProperties keep rest)
    | none => keepProperties keep rest

/-- The functions of a type whose visibility is the wanted one, through at most the given number of
levels. Namespaces without any are dropped. -/
def filterWithin (wanted : Option String) : Nat → TypeId → Building (Option TypeId)
  | 0, _ => return none
  | levels + 1, id => do
    let graph ← get
    if graph.isMarkedReference id then
      match wanted with
      | none => return some id
      | some visibility =>
        return if graph.literalProperty? id "_visibility" = some visibility then some id else none
    else if !graph.isStructured id then return none
    else
      let kept ← keepProperties (filterWithin wanted levels) (graph.properties id)
      if kept.isEmpty then return none
      else return some (← objectType ⟨kept, none⟩)

/-- The functions of an interface whose visibility is the one that a filter declares. An interface
of unknown structure stays unresolved. -/
def filteredType (api filter : TypeId) : Building TypeId := do
  let graph ← get
  if graph.isStructured api then
    match ← filterWithin (graph.literalProperty? filter "_visibility") (walkDepth + 1) api with
    | some id => return id
    | none => allocate (.object ⟨[], none⟩) "\x7b\x7d"
  else unresolvedType (graph.referenceText "FilterApi" [api, filter])

end SwiftBindings.TypeGraph
