/-
**What registered declarations were made from.**

Nothing comes into a registry but by rendering: every struct was rendered from a list of fields, under a
name that derives from a path, and what its properties refer to was registered before it
(`Struct.RenderedFrom`); every enumeration was made from a list of values and every marker from a table.
`Registry.AllMade` says so of a whole registry. A step of rendering keeps it, as registering adds one
declaration at most, and so does a run (`Registry.allMade_answers`). So each property of a registered
struct was made for one of its fields (`Struct.RenderedFrom.made`).
-/

import SwiftBindings.Proofs.Swift.Mentions
import SwiftBindings.Proofs.Swift.PlainNames

namespace SwiftBindings.Swift

/-! ### Origins -/

/-- The struct was rendered from the fields, and what was registered meanwhile is in the registry. -/
def Struct.RenderedFrom (registry : Registry) (declared : Struct) (fields : List Field) : Prop :=
  ∃ (before : Registry) (path : List String) (attempt : Nat),
    declared.name = candidateName (typeName path) attempt ∧
    declared.properties =
      (before.renderProperties path declared.side generatedMembers fields).1 ∧
    (before.renderProperties path declared.side generatedMembers fields).2.Within registry

/-- The declaration was made by rendering. -/
inductive Declaration.Made (registry : Registry) : Declaration → Prop where
  /-- A struct of fields. -/
  | struct {declared : Struct} {fields : List Field}
      (rendered : declared.RenderedFrom registry fields) : Declaration.Made registry (.struct declared)
  /-- An enumeration of values. -/
  | enumeration (path : List String) (attempt : Nat) (values : List String) :
      Declaration.Made registry
        (.enumeration ⟨candidateName (typeName path ++ "Enum") attempt, Case.ofValues values⟩)
  /-- A marker of a table. -/
  | marker (attempt : Nat) (table : String) :
      Declaration.Made registry (.marker ⟨candidateName (typeName [table] ++ "Table") attempt, table⟩)

/-- All declarations of the registry were made by rendering. -/
def Registry.AllMade (registry : Registry) : Prop :=
  ∀ declaration ∈ registry.declarations, declaration.Made registry

theorem Registry.allMade_empty : Registry.empty.AllMade :=
  fun _ member => absurd member List.not_mem_nil

section Made

variable {registry : Registry}

theorem Declaration.Made.mono {later : Registry} {declaration : Declaration}
    (made : declaration.Made registry) (within : registry.Within later) : declaration.Made later := by
  cases made with
  | struct rendered =>
    obtain ⟨before, path, attempt, named, same, inner⟩ := rendered
    exact .struct ⟨before, path, attempt, named, same, inner.trans within⟩
  | enumeration path attempt values => exact .enumeration path attempt values
  | marker attempt table => exact .marker attempt table

/-- Names of declarations start with a capital or an underscore. -/
theorem Declaration.Made.isCapitalName {declaration : Declaration}
    (made : declaration.Made registry) : IsCapitalName declaration.name := by
  have ending : ∀ text ∈ ["Enum", "Table"], ∀ c ∈ text.toList, IsNamePart c := by
    simp [IsNamePart]
  cases made with
  | struct rendered =>
    obtain ⟨_, path, attempt, named, _⟩ := rendered
    show IsCapitalName (Struct.name _)
    rw [named]
    exact (isCapitalName_typeName path).candidateName attempt
  | enumeration path attempt values =>
    exact ((isCapitalName_typeName path).append (ending "Enum" (by simp))).candidateName attempt
  | marker attempt table =>
    exact ((isCapitalName_typeName [table]).append (ending "Table" (by simp))).candidateName attempt

/-- Registering a declaration that was made under any of the names tried for it. -/
theorem Registry.AllMade.register (made : registry.AllMade) {declaration : Declaration}
    (own : ∀ attempt, (declaration.rename (candidateName declaration.name attempt)).Made registry) :
    (registry.register declaration).2.AllMade := by
  obtain ⟨attempt, admitted, same⟩ := registry.register_eq declaration
  have within : registry.Within (registry.register declaration).2 :=
    (registry.register_spec declaration).2.2.within
  intro other member
  rw [same] at member
  rcases (Registry.mem_insert admitted other).mp member with member | rfl
  · exact (made other member).mono within
  · exact (own attempt).mono within

/-! ### Rendering -/

/-- A struct of the properties that were just rendered. -/
theorem Declaration.made_properties (before : Registry) (path : List String) (side : Side)
    (fields : List Field) (attempt : Nat) :
    (Declaration.struct ⟨candidateName (typeName path) attempt, side,
      (before.renderProperties path side generatedMembers fields).1⟩).Made
        (before.renderProperties path side generatedMembers fields).2 := by
  have rendered : Struct.RenderedFrom (before.renderProperties path side generatedMembers fields).2
      ⟨candidateName (typeName path) attempt, side,
        (before.renderProperties path side generatedMembers fields).1⟩ fields :=
    ⟨before, path, attempt, rfl, rfl, Registry.Within.refl _⟩
  exact .struct rendered

mutual

/-- **Rendering a shape adds what is made by rendering only.** -/
theorem Registry.AllMade.renderShape (path : List String) (side : Side) {registry : Registry}
    (made : registry.AllMade) :
    ∀ shape : Shape, (registry.renderShape path side shape).2.AllMade
  | .string | .number | .boolean | .id none => made
  | .id (some table) => made.register fun attempt => .marker attempt table
  | .array ⟨shape, _, _⟩ => by
    rw [Registry.renderShape]
    exact Registry.AllMade.renderShape (path ++ ["Item"]) side made shape
  | .record _ ⟨shape, _, _⟩ => by
    rw [Registry.renderShape]
    exact Registry.AllMade.renderShape (path ++ ["Value"]) side made shape
  | .object fields => by
    rw [Registry.renderShape]
    refine (Registry.AllMade.renderProperties path side generatedMembers made fields).register ?_
    intro attempt
    dsimp only [Declaration.rename, Declaration.name]
    exact Declaration.made_properties registry path side fields attempt
  | .enumeration values => made.register fun attempt => .enumeration path attempt values
  | .any | .unknown _ _ => by
    cases side with
    | decode => exact fun declaration member => (made declaration member).mono fun _ _ found => found
    | encode => exact made

theorem Registry.AllMade.renderProperties (path : List String) (side : Side) (taken : List String)
    {registry : Registry} (made : registry.AllMade) :
    ∀ fields : List Field, (registry.renderProperties path side taken fields).2.AllMade
  | [] => made
  | ⟨name, _, _, ⟨shape, _, _⟩⟩ :: rest => by
    rw [Registry.renderProperties]
    exact Registry.AllMade.renderProperties path side _
      (Registry.AllMade.renderShape (path ++ [name]) side made shape) rest

end

theorem Registry.AllMade.renderStruct (made : registry.AllMade) (fields : List Field)
    (path : List String) (side : Side) : (registry.renderStruct fields path side).2.AllMade := by
  rw [Registry.renderStruct]
  refine (made.renderProperties path side generatedMembers fields).register ?_
  intro attempt
  dsimp only [Declaration.rename, Declaration.name]
  exact Declaration.made_properties registry path side fields attempt

/-! ### Runs -/

theorem Registry.AllMade.answer (made : registry.AllMade) (request : Request) :
    (registry.answer request).2.AllMade := by
  cases request with
  | type validator path side => exact made.renderShape path side validator.shape
  | struct fields path side => exact made.renderStruct fields path side

/-- **After a run every registered declaration was made by rendering.** -/
theorem Registry.AllMade.answers (made : registry.AllMade) (requests : List Request) :
    (registry.answers requests).2.AllMade := by
  induction requests generalizing registry with
  | nil => exact made
  | cons request rest ih => exact ih (made.answer request)

end Made

theorem Registry.allMade_answers (requests : List Request) :
    (Registry.empty.answers requests).2.AllMade :=
  Registry.allMade_empty.answers requests

/-! ### Properties -/

/-- The property was made for the field, with a type that stands for the field's shape. -/
def Property.MadeFor (declared : Lookup) (side : Side) (field : Field) (property : Property) : Prop :=
  ∃ taken type, property = .ofField taken field type side ∧
    Denotes declared side type (field.schema.shape.erased side)

/-- Every property is made for its field, in all registries that hold what was registered with it. -/
theorem Registry.renderProperties_made (path : List String) (side : Side) {final : Registry} :
    ∀ (taken : List String) (registry : Registry) (fields : List Field),
      (registry.renderProperties path side taken fields).2.Within final →
        List.Forall₂ (Property.MadeFor final.find? side) fields
          (registry.renderProperties path side taken fields).1
  | _, _, [], _ => .nil
  | taken, registry, ⟨name, optional, nullable, ⟨shape, absent, null⟩⟩ :: rest, within => by
    obtain ⟨_, denotes⟩ := registry.renderShape_reads (path ++ [name]) side shape
    have grows := ((registry.renderShape (path ++ [name]) side shape).2.renderProperties_reads path side
      (taken ++ [(Property.ofField taken ⟨name, optional, nullable, ⟨shape, absent, null⟩⟩
        (registry.renderShape (path ++ [name]) side shape).1 side).name]) rest).1
    rw [Registry.renderProperties] at within ⊢
    refine .cons ⟨taken, _, rfl, ?_⟩ (Registry.renderProperties_made path side _ _ rest within)
    exact denotes.mono (grows.within.trans within)

theorem Struct.RenderedFrom.made {registry : Registry} {declared : Struct} {fields : List Field}
    (rendered : declared.RenderedFrom registry fields) :
    List.Forall₂ (Property.MadeFor registry.find? declared.side) fields declared.properties := by
  obtain ⟨before, path, attempt, _, same, within⟩ := rendered
  rw [same]
  exact Registry.renderProperties_made path declared.side generatedMembers before fields within

/-- After a run every registered struct was rendered from fields. -/
theorem Registry.exists_renderedFrom {requests : List Request} {declared : Struct}
    (registered : .struct declared ∈ (Registry.empty.answers requests).2.declarations) :
    ∃ fields, declared.RenderedFrom (Registry.empty.answers requests).2 fields := by
  cases Registry.allMade_answers requests _ registered with
  | struct rendered => exact ⟨_, rendered⟩

end SwiftBindings.Swift
