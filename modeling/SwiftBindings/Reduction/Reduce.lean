/-
**Reducing types to validators.**

A union gives up null and the absent value first; then identifiers of rows, primitive types, lists,
mappings, unions of literals and objects are recognised in this order, and any other type is
unknown. The trail holds the types that are being reduced: a type on the trail is a cycle, and at
`maximalNesting` types the reduction goes no deeper. `Visit` passes the trail on from one step to
the next.
-/

import SwiftBindings.Reduction.Identifier
import SwiftBindings.Reduction.InheritedMember
import SwiftBindings.Validator.Basic

namespace SwiftBindings.Reduction

open Declared TypeGraph

/-- The greatest number of types on a trail. -/
def maximalNesting : Nat := 30

/-- The types that are being reduced, each within the one before it. -/
structure Trail where
  /-- Types being reduced, the innermost first. -/
  chain : List TypeId
  /-- Number of types being reduced. -/
  depth : Nat
  deriving DecidableEq, Repr

/-- The trail before anything is reduced. -/
def Trail.empty : Trail := ⟨[], 0⟩

/-- The trail inside a type. -/
def Trail.enter (trail : Trail) (id : TypeId) : Trail :=
  ⟨id :: trail.chain, trail.depth + 1⟩

/-- The trail after a type. -/
def Trail.leave (trail : Trail) (id : TypeId) : Trail :=
  ⟨trail.chain.erase id, trail.depth - 1⟩

@[simp] theorem Trail.leave_enter (trail : Trail) (id : TypeId) :
    (trail.enter id).leave id = trail := by
  simp [Trail.enter, Trail.leave]

/-- A step of a reduction. -/
abbrev Visit := StateM Trail

/-- An unknown value with the text of its type. -/
def gapOf (graph : Graph) (id : TypeId) (gap : Gap) : Validator :=
  .ofGap (graph.text id) gap

/-! ### Unions -/

/-- The type is an absent value. -/
def isAbsence (kind : Kind) : Bool :=
  kind == .primitive .undefined || kind == .primitive .void

/-- The type is null. -/
def isNull (kind : Kind) : Bool := kind == .primitive .null

/-- The value of a string literal. -/
def literalValue? : Kind → Option String
  | .stringLiteral value => some value
  | _ => none

/-- The values of string literals, each once; none when some type is another. -/
def literalValues? (kinds : List Kind) : Option (List String) :=
  (kinds.mapM literalValue?).map List.eraseDups

/-- The type is a truth value or both. -/
def isBooleanLike : Kind → Bool
  | .booleanLiteral _ | .primitive .boolean => true
  | _ => false

/-- The type is a string or all strings. -/
def isStringLike : Kind → Bool
  | .stringLiteral _ | .primitive .string => true
  | _ => false

/-- The validator of two or more alternatives. -/
def unionValidator (graph : Graph) (members : List TypeId) : Validator :=
  let kinds := members.map graph.kind
  if kinds.all isBooleanLike then .ofShape .boolean
  else match literalValues? kinds with
    | some values => .ofShape (.enumeration values)
    | none =>
      if kinds.all isStringLike then .ofShape .string
      else .ofGap (" | ".intercalate (members.map graph.text)) .nonLiteralUnion

/-! ### Single types -/

/-- The shape of a type that is one primitive or literal. -/
def primitiveShape? : Kind → Option Shape
  | .primitive .string => some .string
  | .primitive .boolean | .booleanLiteral _ => some .boolean
  | .primitive .number | .numberLiteral _ => some .number
  | .stringLiteral value => some (.enumeration [value])
  | .primitive .any => some .any
  | _ => none

/-- The validator of a type that has no parts to look at. -/
def atomValidator? (graph : Graph) (id : TypeId) : Option Validator :=
  let kind := graph.kind id
  match identifierTable? graph id with
  | some table => some (.ofShape (.id table))
  | none => match primitiveShape? kind with
    | some shape => some (.ofShape shape)
    | none => match kind with
      | .primitive .null => some ((gapOf graph id .nullOnly).admitting false true)
      | .primitive .undefined | .primitive .void =>
        some ((gapOf graph id .nullOnly).admitting true false)
      | .primitive _ | .tuple _ | .opaqueType => some (gapOf graph id .unclassified)
      | _ => none

/-- The properties that are fields. -/
def fieldProperties (graph : Graph) (id : TypeId) : List Property :=
  (graph.properties id).filter fun property => !isInherited property.name

/-- The fields of properties, over a reduction of their types. -/
def reduceFields (reduce : TypeId → Visit Validator) : List Property → Visit (List Field)
  | [] => return []
  | property :: rest => do
    let schema ← reduce property.type
    return .declare property.name schema property.optional :: (← reduceFields reduce rest)

/-- The validator of a type that is no union, over a reduction of its parts. -/
def classifySingle (graph : Graph) (reduce : TypeId → Visit Validator) (id : TypeId) :
    Visit Validator := do
  match atomValidator? graph id with
  | some validator => return validator
  | none =>
    match graph.arrayElement? id with
    | some element => return .ofShape (.array (← reduce element))
    | none =>
      match graph.index? id with
      | some value => return .ofShape (.record none (← reduce value))
      | none =>
        let properties := fieldProperties graph id
        if properties.isEmpty then return gapOf graph id .unclassified
        else return .ofShape (.object (← reduceFields reduce properties))

/-- The validator of a type, over a reduction of its parts. -/
def classify (graph : Graph) (reduce : TypeId → Visit Validator) (id : TypeId) :
    Visit Validator := do
  match graph.unionMembers? id with
  | none => classifySingle graph reduce id
  | some members =>
    let optional := members.any fun member => isAbsence (graph.kind member)
    let nullable := members.any fun member => isNull (graph.kind member)
    let present := members.filter fun member =>
      !isAbsence (graph.kind member) && !isNull (graph.kind member)
    let validator ← match present with
      | [] => pure (gapOf graph id .nullOnly)
      | [single] => reduce single
      | _ => pure (unionValidator graph present)
    return validator.admitting optional nullable

/-! ### Trails -/

/-- The validator of a type through at most the given number of levels. -/
def reduceWithin (graph : Graph) : Nat → TypeId → Visit Validator
  | 0, id => return gapOf graph id .depthLimit
  | levels + 1, id => do
    let trail ← get
    if trail.depth ≥ maximalNesting then return gapOf graph id .depthLimit
    else if id ∈ trail.chain then return gapOf graph id .cycle
    else
      set (trail.enter id)
      let validator ← classify graph (reduceWithin graph levels) id
      modify fun inner => inner.leave id
      return validator

/-- The validator of a type that is met on a trail. -/
def reduceOn (graph : Graph) (id : TypeId) : Visit Validator :=
  reduceWithin graph (maximalNesting + 1) id

/-- The validator of a type. -/
def reduce (graph : Graph) (id : TypeId) : Validator :=
  (reduceOn graph id Trail.empty).1

end SwiftBindings.Reduction
