/-
**Names that declarations mention.**

A type as written mentions the names of declared types that it refers to, and the values whose types it
asks for. A reference without arguments to a type parameter mentions nothing. `Item.mentions` is what a
declaration mentions in all its parts.

What a name stands for in a file was declared in it or by the framework, so it mentions no more than
the declarations do (`Symbols.avoids_ofItems`). The framework's own declarations mention the
type of branded strings alone.
-/

import Mathlib.Data.List.Basic
import SwiftBindings.Proofs.TypeGraph.Growth

namespace SwiftBindings.TypeGraph

open Declared

/-- A name that a type depends on. -/
inductive Mention where
  /-- A declared type. -/
  | type (name : String)
  /-- A declared value. -/
  | value (name : String)
  deriving DecidableEq, Repr

/-! ### Types as written -/

section Types

variable (bound : List String)

mutual

/-- What a type mentions, where the given type parameters are bound. -/
def mentions : TypeExpr → List Mention
  | .keyword _ => []
  | .stringLiteral _ => []
  | .numberLiteral _ => []
  | .booleanLiteral _ => []
  | .reference name arguments =>
    (if arguments.isEmpty && bound.contains name then [] else [.type name]) ++ mentionsOfAll arguments
  | .array element => mentions element
  | .tuple elements => mentionsOfAll elements
  | .union members => mentionsOfAll members
  | .intersection members => mentionsOfAll members
  | .object members => mentionsOfMembers members
  | .query name => [.value ((segments name).headD "")]
  | .opaqueText _ => []

/-- What any of the types mentions. -/
def mentionsOfAll : List TypeExpr → List Mention
  | [] => []
  | type :: rest => mentions type ++ mentionsOfAll rest

/-- What any of the members mentions. -/
def mentionsOfMembers : List Member → List Mention
  | [] => []
  | .property _ _ type :: rest => mentions type ++ mentionsOfMembers rest
  | .index key value :: rest => mentions key ++ (mentions value ++ mentionsOfMembers rest)

end

end Types

/-! ### Declarations -/

/-- What the defaults of type parameters mention, behind parameters that are bound. -/
def mentionsOfParameters (bound : List String) : List Parameter → List Mention
  | [] => []
  | parameter :: rest =>
    (match parameter.fallback with
      | some fallback => mentions bound fallback
      | none => []) ++ mentionsOfParameters (parameter.name :: bound) rest

/-- What a body mentions, where the given type parameters are bound. -/
def Body.mentions (bound : List String) : Body → List Mention
  | .typeAlias type => TypeGraph.mentions bound type
  | .interface bases members => mentionsOfAll bound bases ++ mentionsOfMembers bound members

/-- What a declared type mentions. -/
def Definition.mentions (definition : Definition) : List Mention :=
  mentionsOfParameters [] definition.parameters ++
    definition.body.mentions (definition.parameters.map Parameter.name)

/-- What a declaration mentions. -/
def mentionsOfItem : Item → List Mention
  | .typeAlias _ parameters type _ => Definition.mentions ⟨parameters, .typeAlias type⟩
  | .interface _ parameters bases members _ => Definition.mentions ⟨parameters, .interface bases members⟩
  | .value _ type _ => mentions [] type
  | .exports _ => []

/-- None of the names is mentioned by what is declared. -/
structure Symbols.Avoids (symbols : Symbols) (names : List Mention) : Prop where
  types : ∀ entry ∈ symbols.types, names.Disjoint entry.2.mentions
  values : ∀ entry ∈ symbols.values, names.Disjoint (mentions [] entry.2)

section Avoids

variable {symbols : Symbols} {names : List Mention}

theorem Symbols.Avoids.type? (avoids : symbols.Avoids names) {name : String} {definition : Definition}
    (declares : symbols.type? name = some definition) : names.Disjoint definition.mentions :=
  avoids.types _ (mem_of_lookup_eq_some declares)

theorem Symbols.Avoids.value? (avoids : symbols.Avoids names) {name : String} {type : TypeExpr}
    (declares : symbols.value? name = some type) : names.Disjoint (mentions [] type) :=
  avoids.values _ (mem_of_lookup_eq_some declares)

theorem Symbols.Avoids.declare (avoids : symbols.Avoids names) {item : Item}
    (free : names.Disjoint (mentionsOfItem item)) (tracked : Bool) :
    (symbols.declare tracked item).Avoids names := by
  cases item with
  | typeAlias name parameters type exported =>
    exact ⟨List.forall_mem_cons.mpr ⟨free, avoids.types⟩, avoids.values⟩
  | interface name parameters bases members exported =>
    exact ⟨List.forall_mem_cons.mpr ⟨free, avoids.types⟩, avoids.values⟩
  | value name type exported =>
    exact ⟨avoids.types, List.forall_mem_cons.mpr ⟨free, avoids.values⟩⟩
  | exports list => exact ⟨avoids.types, avoids.values⟩

theorem Symbols.Avoids.foldl_declare (tracked : Bool) {items : List Item} (avoids : symbols.Avoids names)
    (free : ∀ item ∈ items, names.Disjoint (mentionsOfItem item)) :
    (items.foldl (Symbols.declare tracked) symbols).Avoids names := by
  induction items generalizing symbols with
  | nil => exact avoids
  | cons item rest ih =>
    obtain ⟨first, others⟩ := List.forall_mem_cons.mp free
    exact ih (avoids.declare first tracked) others

/-- The framework's declarations mention the type of branded strings alone. -/
theorem mentionsOfItem_provided : ∀ item ∈ providedItems, ∀ mention ∈ mentionsOfItem item,
    mention = .type "GenericId" := by
  decide

/-- **What a file declares mentions no more than its declarations do.** -/
theorem Symbols.avoids_ofItems {items : List Item} (provided : .type "GenericId" ∉ names)
    (free : ∀ item ∈ items, names.Disjoint (mentionsOfItem item)) :
    (Symbols.ofItems items).Avoids names := by
  have empty : Symbols.empty.Avoids names :=
    ⟨fun _ member => absurd member List.not_mem_nil, fun _ member => absurd member List.not_mem_nil⟩
  refine (empty.foldl_declare false fun item member mention named mentioned => ?_).foldl_declare true free
  rw [mentionsOfItem_provided item member mention mentioned] at named
  exact provided named

end Avoids

end SwiftBindings.TypeGraph
