/-
**Resolving declared types.**

Resolution turns a type as written into a node of the graph. A declared type with its arguments gets
its node before what it stands for is resolved, so a type that refers to itself meets its own node
instead of being resolved again; a value whose type asks for the value's own type gets an opaque
one. Declared types within each other are followed to `maximalDepth`. A resolution within another is
at most that deep in declared types and asks for each value once, which bounds the number of levels
(`Symbols.levels`).
-/

import SwiftBindings.TypeGraph.Construction
import SwiftBindings.TypeGraph.Symbols

namespace SwiftBindings.TypeGraph

open Declared

/-- Declared types nested deeper than this are opaque. -/
def maximalDepth : Nat := 64

/-- The resolution of declared names one level further in. -/
structure Deeper where
  /-- The type of a declared type with arguments. -/
  instantiate : String → List TypeId → Building TypeId
  /-- The type of a value. -/
  valueType : String → Building TypeId

/-- The types that type parameters stand for; of two entries for a name the first counts. -/
abbrev Scope := List (String × TypeId)

/-! ### Names -/

/-- The type of a name that no file declares, with arguments. -/
def providedType (name : String) (arguments : List TypeId) : Building TypeId := do
  match name, arguments with
  | "Array", [element] => arrayType element
  | "ReadonlyArray", [element] => arrayType element
  | "Record", [key, value] => recordType key value
  | "NonNullable", [target] => nonNullableType target
  | "FilterApi", [api, filter] => filteredType api filter
  | _, [target] =>
    match PresenceChange.ofName? name with
    | some change => presenceType name change target
    | none => unresolvedType ((← get).referenceText name arguments)
  | _, _ => unresolvedType ((← get).referenceText name arguments)

/-- The type of a name with arguments. -/
def namedType (symbols : Symbols) (deeper : Deeper) (name : String) (arguments : List TypeId) :
    Building TypeId :=
  if (symbols.type? name).isSome then deeper.instantiate name arguments
  else providedType name arguments

/-- The segments of a dotted name. -/
def segments (name : String) : List String :=
  (name.toList.splitOnP (· == '.')).map String.ofList

/-- The type below a type along a path of properties. -/
def Graph.follow? (graph : Graph) (id : TypeId) (path : List String) : Option TypeId :=
  path.foldlM (fun current name => (graph.property? current name).map Property.type) id

/-- The type of a value, or of one of its properties, by the dotted name. -/
def queriedType (deeper : Deeper) (name : String) : Building TypeId := do
  let id ← deeper.valueType ((segments name).headD "")
  match (← get).follow? id (segments name).tail with
  | some found => return found
  | none => opaqueNode ("typeof " ++ name)

/-! ### Types as written -/

section Resolve

variable (symbols : Symbols) (deeper : Deeper) (scope : Scope)

/-- The object shape with the type of further properties under a type of keys. Only strings and
numbers can be keys. -/
def ObjectShape.indexed (shape : ObjectShape) (key : Kind) (value : TypeId) : ObjectShape :=
  if key = .primitive .string ∨ key = .primitive .number then { shape with index := some value }
  else shape

mutual

/-- The node of a type as written. -/
def resolve : TypeExpr → Building TypeId
  | .keyword keyword => keywordType keyword
  | .stringLiteral value => stringLiteralType value
  | .numberLiteral text => allocate (.numberLiteral text) text
  | .booleanLiteral value =>
    allocate (.booleanLiteral value) (if value then "true" else "false")
  | .reference name arguments =>
    match if arguments.isEmpty then scope.lookup name else none with
    | some id => return id
    | none => do namedType symbols deeper name (← resolveAll arguments)
  | .array element => do arrayType (← resolve element)
  | .tuple elements => do tupleType (← resolveAll elements)
  | .union members => do unionType (← resolveAlternatives members)
  | .intersection members => do intersectionType (← resolveAll members)
  | .object members => do objectType (← resolveMembers ⟨[], none⟩ members)
  | .query name => queriedType deeper name
  | .opaqueText text => opaqueNode text

/-- The nodes of types as written, in order. -/
def resolveAll : List TypeExpr → Building (List TypeId)
  | [] => return []
  | type :: rest => do return (← resolve type) :: (← resolveAll rest)

/-- The alternatives of the members of a union, in order. -/
def resolveAlternatives : List TypeExpr → Building (List TypeId)
  | [] => return []
  | type :: rest => do
    let id ← resolve type
    let own := (← get).alternatives id
    return own ++ (← resolveAlternatives rest)

/-- The object shape with further members. -/
def resolveMembers (shape : ObjectShape) : List Member → Building ObjectShape
  | [] => return shape
  | .property name optional type :: rest => do
    let id ← resolve type
    resolveMembers { shape with
      properties := upsertProperty shape.properties ⟨name, id, optional⟩ } rest
  | .index key value :: rest => do
    let keyId ← resolve key
    let valueId ← resolve value
    resolveMembers (shape.indexed ((← get).kind keyId) valueId) rest

end

/-- The object shape with the members of bases. -/
def resolveBases (shape : ObjectShape) : List TypeExpr → Building ObjectShape
  | [] => return shape
  | base :: rest => do
    let id ← resolve symbols deeper scope base
    let graph ← get
    resolveBases {
      properties := (graph.properties id).foldl upsertProperty shape.properties
      index := shape.index.or (graph.index? id) } rest

end Resolve

/-! ### Declared types and values -/

/-- The scope of a declared type: its parameters with their arguments. A missing argument is the
default, resolved with the parameters before it, or unknown. -/
def bindParameters (symbols : Symbols) (deeper : Deeper) (scope : Scope) :
    List Parameter → List TypeId → Building Scope
  | [], _ => return scope
  | parameter :: rest, argument :: arguments =>
    bindParameters symbols deeper ((parameter.name, argument) :: scope) rest arguments
  | parameter :: rest, [] => do
    let argument ← match parameter.fallback with
      | some fallback => resolve symbols deeper scope fallback
      | none => keywordType .unknown
    bindParameters symbols deeper ((parameter.name, argument) :: scope) rest []

/-- The structure of a type alias at a place for its target. An alias of itself is opaque. -/
def Graph.aliasKind (graph : Graph) (id target : TypeId) : Kind :=
  if target = id then .opaqueType
  else if graph.kind target = .pending then .opaqueType
  else graph.kind target

/-- The structure of what a declared type stands for; the type's own place is given. -/
def bodyKind (symbols : Symbols) (deeper : Deeper) (scope : Scope) (id : TypeId) :
    Body → Building Kind
  | .typeAlias type => do
    let target ← resolve symbols deeper scope type
    return (← get).aliasKind id target
  | .interface bases members => do
    let inherited ← resolveBases symbols deeper scope ⟨[], none⟩ bases
    let own ← resolveMembers symbols deeper scope ⟨[], none⟩ members
    return .object {
      properties := own.properties.foldl upsertProperty inherited.properties
      index := own.index.or inherited.index }

/-- Adds the node of a declared type whose structure is not yet known, and goes one level deeper. -/
def enterInstance (declared : Instance) : Building TypeId := do
  let id ← allocate .pending ((← get).referenceText declared.name declared.arguments)
  modify fun graph => { graph with
    instances := (declared, id) :: graph.instances
    depth := graph.depth + 1 }
  return id

/-- Gives the node of a declared type its structure, and comes back one level. -/
def leaveInstance (id : TypeId) (kind : Kind) : Building Unit :=
  modify fun graph => { graph with
    nodes := graph.nodes.modify id fun node => { node with kind }
    depth := graph.depth - 1 }

/-- The node of a declared type with arguments. -/
def instantiateWith (symbols : Symbols) (deeper : Deeper) (name : String)
    (arguments : List TypeId) : Building TypeId := do
  let graph ← get
  match graph.instances.lookup ⟨name, arguments⟩ with
  | some id => return id
  | none =>
    let text := graph.referenceText name arguments
    match symbols.type? name with
    | none => unresolvedType text
    | some definition =>
      if graph.depth ≥ maximalDepth then opaqueNode text
      else
        let id ← enterInstance ⟨name, arguments⟩
        let scope ← bindParameters symbols deeper [] definition.parameters arguments
        let kind ← bodyKind symbols deeper scope id definition.body
        leaveInstance id kind
        return id

/-- The type of a value. -/
def valueTypeWith (symbols : Symbols) (deeper : Deeper) (name : String) : Building TypeId := do
  let graph ← get
  match graph.values.lookup name with
  | some id => return id
  | none =>
    match symbols.value? name with
    | none => unresolvedType ("typeof " ++ name)
    | some type =>
      if name ∈ graph.resolving then opaqueNode ("typeof " ++ name)
      else
        set { graph with resolving := name :: graph.resolving }
        let id ← resolve symbols deeper [] type
        modify fun resolved => { resolved with
          resolving := resolved.resolving.erase name
          values := (name, id) :: resolved.values }
        return id

/-! ### Levels -/

/-- No level further in. -/
def Deeper.exhausted : Deeper where
  instantiate := fun name arguments => do opaqueNode ((← get).referenceText name arguments)
  valueType := fun name => opaqueNode ("typeof " ++ name)

/-- The given number of levels further in. -/
def Deeper.ofLevels (symbols : Symbols) : Nat → Deeper
  | 0 => .exhausted
  | levels + 1 => {
      instantiate := fun name arguments graph =>
        instantiateWith symbols (ofLevels symbols levels) name arguments graph
      valueType := fun name graph =>
        valueTypeWith symbols (ofLevels symbols levels) name graph }

/-- A number of levels that no resolution exceeds: each level is a declared type, of which there are
at most `maximalDepth` within each other, or a value, each of which occurs once. -/
def Symbols.levels (symbols : Symbols) : Nat :=
  maximalDepth + symbols.values.length + 2

/-- The type of a value. -/
def valueType (symbols : Symbols) (name : String) : Building TypeId :=
  (Deeper.ofLevels symbols symbols.levels).valueType name

/-- The type of an exported value, or none when no value is exported under the name. -/
def exportType? (symbols : Symbols) (name : String) : Building (Option TypeId) := do
  match symbols.exportedValue? name with
  | some localName => return some (← valueType symbols localName)
  | none => return none

end SwiftBindings.TypeGraph
