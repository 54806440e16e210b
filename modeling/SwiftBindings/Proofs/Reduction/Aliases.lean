/-
**Type aliases.**

An alias with a fresh name stands for its target: a value whose type is the alias and one whose type is
the target are reduced to the same validator in graphs of their own, but that an unknown value has the
name of the alias as its text (`alias_transparent`). Two kinds of targets are not seen through an alias. A
type that contains itself is met again one level later, since the alias and its target are two types. And
a type that is an identifier by its text alone loses the table with the text
(`aliases_not_transparent`).

An alias counts as a declared type, so its target is resolved one declared type further in.
`Symbols.HasDepthLeft` says that this makes no difference.
-/

import SwiftBindings.Proofs.FrontEnds.Alternatives
import SwiftBindings.Proofs.Reduction.IdentifierText
import SwiftBindings.Proofs.Reduction.RenamedVisits
import SwiftBindings.Proofs.TypeGraph.AliasRuns

namespace SwiftBindings.Reduction

open Declared TypeGraph

/-! ### A file with an alias -/

/-- The declarations with an alias of a type, and with exported values of the type and of the alias. -/
def withAlias (items : List Item) (type : TypeExpr) (name direct named : String) : List Item :=
  items ++ [.typeAlias name [] type false, .value direct type true,
    .value named (.reference name []) true]

/-- What only the declarations of the alias and of the values may mention. -/
def newMentions (name direct named : String) : List Mention :=
  [.type name, .value direct, .value named]

/-- The names of the alias and of the values are new: neither a declaration nor the type mentions them.
The alias has no brackets in its name and is no identifier type. -/
structure IsFreshAlias (items : List Item) (type : TypeExpr) (name direct named : String) : Prop where
  unopened : '<' ∉ name.toList
  other : name ∉ identifierNames
  apart : direct ≠ named
  unmentioned : ∀ mention ∈ newMentions name direct named, mention ∉ mentions [] type
  free : ∀ item ∈ items, ∀ mention ∈ newMentions name direct named, mention ∉ mentionsOfItem item

section Alias

variable {items : List Item} {type : TypeExpr} {name direct named : String}

/-- The names of a file with an alias. -/
theorem ofItems_withAlias :
    Symbols.ofItems (withAlias items type name direct named) =
      { types := (name, ⟨[], .typeAlias type⟩) :: (Symbols.ofItems items).types
        values := (named, .reference name []) :: (direct, type) :: (Symbols.ofItems items).values
        exports := (named, named) :: (direct, direct) :: (Symbols.ofItems items).exports } := by
  rw [Symbols.ofItems, withAlias, List.foldl_append]
  rfl

variable (fresh : IsFreshAlias items type name direct named)

include fresh

theorem IsFreshAlias.avoids :
    (Symbols.ofItems items).Avoids (newMentions name direct named) := by
  refine Symbols.avoids_ofItems (fun provided => ?_) fun item member =>
    List.disjoint_left.mpr fun mention => fresh.free item member mention
  have same : Mention.type "GenericId" = .type name := by simpa [newMentions] using provided
  injection same with same
  exact fresh.other (by rw [← same]; decide)

/-- The alias stands for the type in the file. -/
theorem IsFreshAlias.declares :
    Aliasing.Declares ⟨Symbols.ofItems (withAlias items type name direct named), name, direct, named⟩
      type where
  fresh :=
    { types := fun other definition declares different => by
        rw [ofItems_withAlias, Symbols.type?, lookup_cons_of_ne _ different] at declares
        exact fresh.avoids.type? declares
      values := fun other written declares direct named => by
        rw [ofItems_withAlias, Symbols.value?, lookup_cons_of_ne _ named,
          lookup_cons_of_ne _ direct] at declares
        exact fresh.avoids.value? declares }
  free := List.disjoint_left.mpr fun mention => fresh.unmentioned mention
  target := by rw [ofItems_withAlias, Symbols.type?, List.lookup_cons_self]
  direct := by
    rw [ofItems_withAlias, Symbols.value?, lookup_cons_of_ne _ fresh.apart, List.lookup_cons_self]
  named := by rw [ofItems_withAlias, Symbols.value?, List.lookup_cons_self]

theorem IsFreshAlias.exports_direct :
    (Symbols.ofItems (withAlias items type name direct named)).exportedValue? direct = some direct := by
  have exported :
      (Symbols.ofItems (withAlias items type name direct named)).exports.lookup direct = some direct := by
    rw [ofItems_withAlias, lookup_cons_of_ne _ fresh.apart, List.lookup_cons_self]
  have declared := fresh.declares.direct
  rw [Symbols.exportedValue?, exported]
  simp [declared]

theorem IsFreshAlias.exports_named :
    (Symbols.ofItems (withAlias items type name direct named)).exportedValue? named = some named := by
  have exported :
      (Symbols.ofItems (withAlias items type name direct named)).exports.lookup named = some named := by
    rw [ofItems_withAlias, List.lookup_cons_self]
  have declared := fresh.declares.named
  rw [Symbols.exportedValue?, exported]
  simp [declared]

/-! ### Transparency -/

/-- **An alias is transparent.** A value of a type and a value of an alias of it are reduced to the same
validator, but that an unknown value has the name of the alias as its text: unless the type contains
itself, or is an identifier by its text that its structure does not brand. -/
theorem alias_transparent
    (left : (Symbols.ofItems (withAlias items type name direct named)).HasDepthLeft direct) :
    let symbols := Symbols.ofItems (withAlias items type name direct named)
    let plain := valueType symbols direct .initial
    let aliased := valueType symbols named .initial
    exportType? symbols direct .initial = (some plain.1, plain.2) ∧
      exportType? symbols named .initial = (some aliased.1, aliased.2) ∧
      (¬ContainsItself plain.2 plain.1 →
        (plain.2.unionMembers? plain.1 = none →
          identifierTable? plain.2 plain.1 = brandedTable? plain.2 plain.1) →
        (reduce plain.2 plain.1).SameBut (plain.2.text plain.1) name (reduce aliased.2 aliased.1)) := by
  intro symbols plain aliased
  have exported := exportType?_of_some fresh.exports_direct .initial
  have settled : plain.2.kind plain.1 ≠ .pending := by
    have finished := (graphAfter_recorded symbols [direct]).1.finished plain.1
    have last : graphAfter symbols [direct] .initial = plain.2 := congrArg Prod.snd exported
    rwa [last] at finished
  refine ⟨exported, exportType?_of_some fresh.exports_named .initial, fun once table => ?_⟩
  obtain ⟨place, aliases⟩ := fresh.declares.aliases_initial left settled
  have unnamed : identifierArgument? name = none := by
    rw [Option.eq_none_iff_forall_ne_some]
    intro argument found
    obtain ⟨front, inner, whole, _⟩ := identifierArgument?_eq_some_iff.mp found
    exact fresh.unopened (by simp [whole])
  have related := reduce_rename aliases.renames moved_injective aliases.kind
    (fun single => by
      rw [table single, identifierTable?, aliases.text, unnamed]
      exact brandedTable?_rename aliases.renames aliases.kind) moved_ne_aliasPlace once
  rw [aliases.text] at related
  show (reduce plain.2 plain.1).SameBut (plain.2.text plain.1) name
    (reduce aliased.2 aliased.1)
  rw [place]
  exact related

end Alias

/-- A type with an identifier and a list of alternatives. -/
def postType : TypeExpr :=
  .object [.property "owner" false (.reference "Id" [.stringLiteral "users"]),
    .property "tags" true (.array (.reference "Tag" []))]

/-- A file that declares the alternatives. -/
def tagItems : List Item :=
  [.typeAlias "Tag" [] (.union [.stringLiteral "a", .stringLiteral "b"]) false]

/-- It is seen through its alias. -/
theorem postType_seen_through :
    let symbols := Symbols.ofItems (withAlias tagItems postType "Post" "plain" "post")
    let plain := valueType symbols "plain" .initial
    let aliased := valueType symbols "post" .initial
    exportType? symbols "plain" .initial = (some plain.1, plain.2) ∧
      exportType? symbols "post" .initial = (some aliased.1, aliased.2) ∧
        (reduce plain.2 plain.1).SameBut (plain.2.text plain.1) "Post"
          (reduce aliased.2 aliased.1) := by
  intro symbols plain aliased
  have fresh : IsFreshAlias tagItems postType "Post" "plain" "post" :=
    ⟨by decide, by decide, by decide, by decide, by decide⟩
  have left : symbols.HasDepthLeft "plain" := ⟨by decide +kernel, by decide +kernel⟩
  obtain ⟨direct, named, same⟩ := alias_transparent fresh left
  have once : ¬ContainsItself plain.2 plain.1 :=
    not_containsItself [2, 7, 11] (by decide +kernel) (by decide +kernel) (by decide +kernel)
  exact ⟨direct, named, same once fun _ => by decide +kernel⟩

/-! ### What an alias hides -/

/-- The alias is fresh and there is room for it, but the two values are reduced to validators that
differ in more than the texts of unknown values. -/
structure HidesTarget (items : List Item) (type : TypeExpr) (name direct named : String) : Prop where
  fresh : IsFreshAlias items type name direct named
  left : (Symbols.ofItems (withAlias items type name direct named)).HasDepthLeft direct
  differs :
    let symbols := Symbols.ofItems (withAlias items type name direct named)
    let plain := valueType symbols direct .initial
    let aliased := valueType symbols named .initial
    (reduce aliased.2 aliased.1).outline ≠ (reduce plain.2 plain.1).outline

/-- The kind of the value under a key of an object. -/
def fieldKind? (validator : Validator) (name : String) : Option String :=
  match validator.shape with
  | .object fields =>
    (fields.find? fun field => field.name == name).map fun field => field.schema.shape.kindName
  | _ => none

/-- A file that declares a type that contains itself. -/
def nodeItems : List Item :=
  [.typeAlias "Node" [] (.object [.property "next" false (.reference "Node" []),
    .property "label" false (.keyword .string)]) false]

/-- Neither a type that contains itself nor one that is an identifier by its text alone is seen through
its alias. -/
theorem aliases_not_transparent :
    HidesTarget nodeItems (.reference "Node" []) "N" "b" "a" ∧
      HidesTarget [] (.reference "data.Id" [.stringLiteral "x"]) "N" "b" "a" := by
  constructor
  · refine ⟨⟨by decide, by decide, by decide, by decide, by decide⟩,
      ⟨by decide +kernel, by decide +kernel⟩, ?_⟩
    intro symbols plain aliased same
    have direct : fieldKind? (reduce plain.2 plain.1).outline "next" = some "unknown" := by
      decide +kernel
    have named : fieldKind? (reduce aliased.2 aliased.1).outline "next" = some "object" := by
      decide +kernel
    rw [same, direct] at named
    simp at named
  · refine ⟨⟨by decide, by decide, by decide, by decide, by decide⟩,
      ⟨by decide +kernel, by decide +kernel⟩, ?_⟩
    intro symbols plain aliased same
    have direct : (reduce plain.2 plain.1).outline.shape.kindName = "id" := by decide +kernel
    have named : (reduce aliased.2 aliased.1).outline.shape.kindName = "unknown" := by decide +kernel
    rw [same, direct] at named
    exact absurd named (by decide)

end SwiftBindings.Reduction
