/-
**Graphs under other places.**

Two graphs can hold the same types at different places. `Graph.Renames` says that every type of the
first graph stands in the second one at the place that a renaming gives it: with the same text, and with
its structure under the renaming.

Nothing that is seen of a type tells the two graphs apart. Its properties, the type of further ones, its
alternatives and its keys are the same under the renaming, and all texts are equal. What is seen of the
structure alone holds of any two types whose structures are the same under the renaming
(`Graph.SameUnder`), so also where a type has another text or a second place.
-/

import SwiftBindings.TypeGraph.Resolution

namespace SwiftBindings.TypeGraph

open Declared

/-! ### Structures under other places -/

section Rename

variable (place : TypeId → TypeId)

/-- The property with its type at its new place. -/
def Property.rename (property : Property) : Property :=
  { property with type := place property.type }

/-- The object shape with all types at their new places. -/
def ObjectShape.rename (shape : ObjectShape) : ObjectShape :=
  ⟨shape.properties.map (Property.rename place), shape.index.map place⟩

/-- The structure with its parts at their new places. -/
def Kind.rename : Kind → Kind
  | .primitive keyword => .primitive keyword
  | .stringLiteral value => .stringLiteral value
  | .numberLiteral text => .numberLiteral text
  | .booleanLiteral value => .booleanLiteral value
  | .array element => .array (place element)
  | .tuple elements => .tuple (elements.map place)
  | .union members => .union (members.map place)
  | .intersection parts => .intersection (parts.map place)
  | .object shape => .object (shape.rename place)
  | .unresolved => .unresolved
  | .opaqueType => .opaqueType
  | .pending => .pending

theorem Kind.rename_eq_primitive_iff {kind : Kind} {keyword : Keyword} :
    kind.rename place = .primitive keyword ↔ kind = .primitive keyword := by
  cases kind <;> simp [Kind.rename]

theorem Kind.rename_eq_pending_iff {kind : Kind} : kind.rename place = .pending ↔ kind = .pending := by
  cases kind <;> simp [Kind.rename]

/-! ### Lists of properties -/

theorem inherited_rename (method : place methodType = methodType) (names : List String) :
    (inherited names).map (Property.rename place) = inherited names := by
  rw [inherited, List.map_map]
  refine List.map_congr_left fun name _ => ?_
  rw [Function.comp_apply, Property.rename, method]

theorem mergeProperties_rename (first second : List Property) :
    mergeProperties (first.map (Property.rename place)) (second.map (Property.rename place)) =
      (mergeProperties first second).map (Property.rename place) := by
  rw [mergeProperties, mergeProperties, List.foldl_map]
  refine List.foldl_hom (List.map (Property.rename place)) fun merged property => ?_
  have held : (merged.map (Property.rename place)).any
      (fun other => other.name == (property.rename place).name) =
        merged.any fun other => other.name == property.name := by
    rw [List.any_map]
    rfl
  rw [held]
  split
  · rfl
  · rw [List.map_append, List.map_singleton]

theorem upsertProperty_rename (properties : List Property) (property : Property) :
    upsertProperty (properties.map (Property.rename place)) (property.rename place) =
      (upsertProperty properties property).map (Property.rename place) := by
  induction properties with
  | nil => rfl
  | cons first rest ih =>
    rw [List.map_cons, upsertProperty, upsertProperty, ih]
    show (if first.name = property.name then _ else _) = _
    split
    · rfl
    · rfl

theorem foldl_upsertProperty_rename (properties more : List Property) :
    (more.map (Property.rename place)).foldl upsertProperty (properties.map (Property.rename place)) =
      (more.foldl upsertProperty properties).map (Property.rename place) := by
  rw [List.foldl_map]
  exact List.foldl_hom (List.map (Property.rename place)) fun merged property =>
    upsertProperty_rename place merged property

theorem PresenceChange.apply_rename (change : PresenceChange) (property : Property) :
    change.apply (property.rename place) = (change.apply property).rename place := rfl

theorem ObjectShape.indexed_rename (shape : ObjectShape) (key : Kind) (value : TypeId) :
    (shape.rename place).indexed (key.rename place) (place value) =
      (shape.indexed key value).rename place := by
  rw [ObjectShape.indexed, ObjectShape.indexed]
  simp only [Kind.rename_eq_primitive_iff]
  split
  · rfl
  · rfl

end Rename

/-! ### Two graphs -/

/-- The second type has the structure of the first, with its parts at their new places. -/
def Graph.SameUnder (place : TypeId → TypeId) (graph other : Graph) (first second : TypeId) : Prop :=
  other.kind second = (graph.kind first).rename place

/-- Every type of the first graph stands in the second one at its new place. -/
structure Graph.Renames (place : TypeId → TypeId) (graph other : Graph) : Prop where
  method : place methodType = methodType
  kind : ∀ id, graph.SameUnder place other id (place id)
  text : ∀ id, other.text (place id) = graph.text id

section Structure

variable {place : TypeId → TypeId} {graph other : Graph} {first second : TypeId}
  (same : graph.SameUnder place other first second)

include same

theorem unionMembers?_rename :
    other.unionMembers? second = (graph.unionMembers? first).map (List.map place) := by
  rw [Graph.unionMembers?, Graph.unionMembers?, same]
  cases graph.kind first <;> rfl

theorem arrayElement?_rename :
    other.arrayElement? second = (graph.arrayElement? first).map place := by
  rw [Graph.arrayElement?, Graph.arrayElement?, same]
  cases graph.kind first <;> rfl

theorem stringValue?_rename : other.stringValue? second = graph.stringValue? first := by
  rw [Graph.stringValue?, Graph.stringValue?, same]
  cases graph.kind first <;> rfl

theorem isStructured_rename : other.isStructured second = graph.isStructured first := by
  rw [Graph.isStructured, Graph.isStructured, same]
  cases graph.kind first <;> rfl

theorem alternatives_rename (there : place first = second) :
    other.alternatives second = (graph.alternatives first).map place := by
  rw [Graph.alternatives, Graph.alternatives, unionMembers?_rename same]
  cases graph.unionMembers? first with
  | none => rw [← there]; rfl
  | some members => rfl

end Structure

/-- Every type of the first graph has its structure in the second one at its new place, but that a union
may have other alternatives there. -/
structure Graph.RenamesButUnions (place : TypeId → TypeId) (graph other : Graph) : Prop where
  method : place methodType = methodType
  kind : ∀ id, graph.SameUnder place other id (place id) ∨
    ∃ members members', graph.kind id = .union members ∧ other.kind (place id) = .union members'

theorem Graph.Renames.butUnions {place : TypeId → TypeId} {graph other : Graph}
    (renames : graph.Renames place other) : graph.RenamesButUnions place other :=
  ⟨renames.method, fun id => .inl (renames.kind id)⟩

section Unions

variable {graph : Graph} {id : TypeId} {members : List TypeId} (union : graph.kind id = .union members)

include union

theorem propertiesWithin_union (levels : Nat) : graph.propertiesWithin levels id = [] := by
  cases levels with
  | zero => rfl
  | succ levels => rw [Graph.propertiesWithin, union]

theorem indexWithin_union (levels : Nat) : graph.indexWithin levels id = none := by
  cases levels with
  | zero => rfl
  | succ levels => rw [Graph.indexWithin, union]

end Unions

section ButUnions

variable {place : TypeId → TypeId} {graph other : Graph} (renames : graph.RenamesButUnions place other)

include renames

theorem propertiesWithin_rename (levels : Nat) {first second : TypeId}
    (same : graph.SameUnder place other first second) :
    other.propertiesWithin levels second =
      (graph.propertiesWithin levels first).map (Property.rename place) := by
  induction levels generalizing first second with
  | zero => rfl
  | succ levels ih =>
    have methods := inherited_rename place renames.method
    rw [Graph.propertiesWithin, Graph.propertiesWithin, same]
    cases graph.kind first with
    | primitive keyword =>
      cases keyword with
      | string => exact (methods stringMembers).symm
      | number => exact (methods numberMembers).symm
      | boolean => exact (methods booleanMembers).symm
      | _ => rfl
    | stringLiteral value => exact (methods stringMembers).symm
    | numberLiteral text => exact (methods numberMembers).symm
    | booleanLiteral value => exact (methods booleanMembers).symm
    | intersection parts =>
      rw [Kind.rename]
      dsimp only
      rw [List.foldl_map]
      show parts.foldl _ (([] : List Property).map (Property.rename place)) = _
      refine List.foldl_hom (List.map (Property.rename place)) fun merged part => ?_
      rcases renames.kind part with same | ⟨_, _, union, union'⟩
      · rw [ih same, mergeProperties_rename]
      · rw [propertiesWithin_union union, propertiesWithin_union union']
        exact mergeProperties_rename place merged []
    | _ => rfl

theorem indexWithin_rename (levels : Nat) {first second : TypeId}
    (same : graph.SameUnder place other first second) :
    other.indexWithin levels second = (graph.indexWithin levels first).map place := by
  induction levels generalizing first second with
  | zero => rfl
  | succ levels ih =>
    rw [Graph.indexWithin, Graph.indexWithin, same]
    cases graph.kind first with
    | intersection parts =>
      rw [Kind.rename]
      dsimp only
      induction parts with
      | nil => rfl
      | cons part rest step =>
        have first : other.indexWithin levels (place part) =
            (graph.indexWithin levels part).map place := by
          rcases renames.kind part with same | ⟨_, _, union, union'⟩
          · exact ih same
          · rw [indexWithin_union union, indexWithin_union union']
            rfl
        rw [List.map_cons, List.findSome?_cons, List.findSome?_cons, first, step]
        cases graph.indexWithin levels part <;> rfl
    | _ => rfl

end ButUnions

section Properties

variable {place : TypeId → TypeId} {graph other : Graph} (renames : graph.Renames place other)

include renames

variable {first second : TypeId} (same : graph.SameUnder place other first second)

include same

theorem properties_rename :
    other.properties second = (graph.properties first).map (Property.rename place) :=
  propertiesWithin_rename renames.butUnions _ same

theorem index?_rename : other.index? second = (graph.index? first).map place :=
  indexWithin_rename renames.butUnions _ same

theorem property?_rename (name : String) :
    other.property? second name = (graph.property? first name).map (Property.rename place) := by
  rw [Graph.property?, Graph.property?, properties_rename renames same, List.find?_map]
  rfl

theorem follow?_rename (path : List String) (there : place first = second) :
    other.follow? second path = (graph.follow? first path).map place := by
  subst there
  clear same
  induction path generalizing first with
  | nil => rfl
  | cons name rest ih =>
    rw [Graph.follow?, Graph.follow?, List.foldlM_cons, List.foldlM_cons,
      property?_rename renames (renames.kind first)]
    cases graph.property? first name with
    | none => rfl
    | some property => exact ih

theorem literalProperty?_rename (name : String) :
    other.literalProperty? second name = graph.literalProperty? first name := by
  rw [Graph.literalProperty?, Graph.literalProperty?, property?_rename renames same]
  cases graph.property? first name with
  | none => rfl
  | some property => exact stringValue?_rename (renames.kind property.type)

theorem isMarkedReference_rename : other.isMarkedReference second = graph.isMarkedReference first := by
  rw [Graph.isMarkedReference, Graph.isMarkedReference]
  refine congrArg (List.all _) (funext fun name => ?_)
  rw [property?_rename renames same, Option.isSome_map]

theorem literalKeys?_rename : other.literalKeys? second = graph.literalKeys? first := by
  rw [Graph.literalKeys?, Graph.literalKeys?, same]
  cases graph.kind first with
  | union members =>
    rw [Kind.rename]
    dsimp only
    rw [List.mapM_map]
    refine congrArg (fun value : TypeId → Option String => members.mapM value) (funext fun member => ?_)
    exact stringValue?_rename (renames.kind member)
  | _ => rfl

end Properties

section Texts

variable {place : TypeId → TypeId} {graph other : Graph} (renames : graph.Renames place other)

include renames

theorem joinedTexts_rename (ids : List TypeId) (separator : String) :
    other.joinedTexts (ids.map place) separator = graph.joinedTexts ids separator := by
  rw [Graph.joinedTexts, Graph.joinedTexts, List.map_map]
  refine congrArg separator.intercalate (List.map_congr_left fun id _ => renames.text id)

theorem referenceText_rename (name : String) (arguments : List TypeId) :
    other.referenceText name (arguments.map place) = graph.referenceText name arguments := by
  rw [Graph.referenceText, Graph.referenceText, List.isEmpty_map, joinedTexts_rename renames]

theorem objectText_rename (shape : ObjectShape) :
    other.objectText (shape.rename place) = graph.objectText shape := by
  obtain ⟨properties, index⟩ := shape
  have texts : (properties.map (Property.rename place)).map other.propertyText =
      properties.map graph.propertyText := by
    rw [List.map_map]
    refine List.map_congr_left fun property _ => ?_
    rw [Function.comp_apply, Graph.propertyText, Graph.propertyText, Property.rename, renames.text]
  rw [Graph.objectText, Graph.objectText, ObjectShape.rename]
  dsimp only
  rw [texts]
  cases index with
  | none => rfl
  | some value =>
    simp only [Option.map_some, renames.text]

/-- The structure of an alias is the same. -/
theorem aliasKind_rename (injective : Function.Injective place) (id target : TypeId) :
    other.aliasKind (place id) (place target) = (graph.aliasKind id target).rename place := by
  rw [Graph.aliasKind, Graph.aliasKind, renames.kind target]
  simp only [injective.eq_iff, Kind.rename_eq_pending_iff]
  split
  · rfl
  · split
    · rfl
    · rfl

/-- The alternatives that are left of a union are the same. -/
theorem filter_kind_rename (keep : Kind → Bool)
    (kept : ∀ kind : Kind, keep (kind.rename place) = keep kind) (members : List TypeId) :
    (members.map place).filter (fun member => keep (other.kind member)) =
      (members.filter fun member => keep (graph.kind member)).map place := by
  rw [List.filter_map]
  refine congrArg (List.map place) (List.filter_congr fun member _ => ?_)
  rw [Function.comp_apply, renames.kind member, kept]

end Texts

end SwiftBindings.TypeGraph
