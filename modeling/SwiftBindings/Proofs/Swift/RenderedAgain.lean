/-
**Rendering once more changes nothing.**

Rendering puts declarations behind those that a registry has, and takes none away
(`Registry.ExtendsTo`). Whatever is rendered is found again in all registries that come after: the names
that a declaration could not have are held by other declarations for good, and the name that it got
holds the declaration itself, so registering it again tries the same names and stops at the same one
(`Registry.register_again`). A validator is rendered from the inside out, and its parts come back with
the types that they had, so its declarations are the same ones.

**The main statement.** `rendering_settles`: in every registry, rendering a validator or a struct only
adds declarations at the end, and rendering it once more after any further renderings gives the same
answer and leaves the registry as it is.
-/

import SwiftBindings.Proofs.Swift.ReadBack

namespace SwiftBindings.Swift

/-! ### Later registries -/

/-- The second registry is the first with further declarations behind its own. -/
structure Registry.ExtendsTo (earlier later : Registry) : Prop where
  /-- No declaration is changed, moved or taken away. -/
  declarations : earlier.declarations <+: later.declarations
  /-- The value of unknown shape stays in use. -/
  usesJsonValue : earlier.usesJsonValue = true → later.usesJsonValue = true

theorem Registry.ExtendsTo.refl (registry : Registry) : registry.ExtendsTo registry :=
  ⟨List.prefix_rfl, id⟩

theorem Registry.ExtendsTo.trans {first second third : Registry} (before : first.ExtendsTo second)
    (after : second.ExtendsTo third) : first.ExtendsTo third :=
  ⟨before.declarations.trans after.declarations, fun used => after.usesJsonValue (before.usesJsonValue used)⟩

/-- What is found in a registry is found in all that it extends to. -/
theorem Registry.ExtendsTo.within {earlier later : Registry} (extended : earlier.ExtendsTo later) :
    earlier.Within later := by
  intro name declaration found
  obtain ⟨further, same⟩ := extended.declarations
  rw [Registry.find?] at found ⊢
  rw [← same, List.find?_append, found, Option.some_or]

theorem Registry.extendsTo_insert (registry : Registry) (declaration : Declaration) :
    registry.ExtendsTo (registry.insert declaration) := by
  rw [Registry.insert]
  split
  · exact ⟨List.prefix_append _ _, id⟩
  · exact .refl registry

theorem Registry.extendsTo_register (registry : Registry) (declaration : Declaration) :
    registry.ExtendsTo (registry.register declaration).2 := by
  obtain ⟨attempt, _, same⟩ := registry.register_eq declaration
  rw [same]
  exact registry.extendsTo_insert _

mutual

/-- Rendering a shape only adds declarations. -/
theorem Registry.extendsTo_renderShape (path : List String) (side : Side) (registry : Registry) :
    ∀ shape : Shape, registry.ExtendsTo (registry.renderShape path side shape).2
  | .string | .number | .boolean | .id none => .refl registry
  | .id (some table) => registry.extendsTo_register _
  | .array ⟨shape, _, _⟩ => by
    rw [Registry.renderShape]
    exact Registry.extendsTo_renderShape (path ++ ["Item"]) side registry shape
  | .record _ ⟨shape, _, _⟩ => by
    rw [Registry.renderShape]
    exact Registry.extendsTo_renderShape (path ++ ["Value"]) side registry shape
  | .object fields => by
    rw [Registry.renderShape]
    exact (Registry.extendsTo_renderProperties path side generatedMembers registry fields).trans
      (Registry.extendsTo_register _ _)
  | .enumeration values => registry.extendsTo_register _
  | .any | .unknown _ _ => by
    cases side with
    | decode => exact ⟨List.prefix_rfl, fun _ => rfl⟩
    | encode => exact .refl registry

/-- Rendering fields only adds declarations. -/
theorem Registry.extendsTo_renderProperties (path : List String) (side : Side) (taken : List String)
    (registry : Registry) : ∀ fields : List Field,
      registry.ExtendsTo (registry.renderProperties path side taken fields).2
  | [] => .refl registry
  | ⟨name, _, _, ⟨shape, _, _⟩⟩ :: rest => by
    rw [Registry.renderProperties]
    exact (Registry.extendsTo_renderShape (path ++ [name]) side registry shape).trans
      (Registry.extendsTo_renderProperties path side _ _ rest)

end

/-! ### Registering again -/

/-- A declaration that is refused stays refused: what holds its name is never taken away. -/
theorem Registry.Within.refused {earlier later : Registry} (within : earlier.Within later)
    {declaration : Declaration} (refused : earlier.admits declaration = false) :
    later.admits declaration = false := by
  obtain ⟨existing, held, other⟩ := (earlier.admits_eq_false_iff declaration).mp refused
  exact (later.admits_eq_false_iff declaration).mpr ⟨existing, within _ _ held, other⟩

/-- **A registered declaration is found again**: registering it once more answers the name that it got
and leaves the registry as it is. -/
theorem Registry.register_again {registry later : Registry} {declaration : Declaration}
    (extended : (registry.register declaration).2.ExtendsTo later) :
    later.register declaration = ((registry.register declaration).1, later) := by
  obtain ⟨attempt, below, admitted, refused, same⟩ := registry.register_eq_first declaration
  rw [same] at extended ⊢
  have grown := (registry.extendsTo_insert _).trans extended
  have held := extended.within _ _ (Registry.find?_insert admitted)
  rw [Declaration.name_rename] at held
  have renamed : (declaration.rename (candidateName declaration.name attempt)).name =
      candidateName declaration.name attempt := Declaration.name_rename _ _
  have again : later.register declaration = (candidateName declaration.name attempt,
      later.insert (declaration.rename (candidateName declaration.name attempt))) :=
    Registry.register_of_first (lt_of_lt_of_le below (Nat.succ_le_succ grown.declarations.length_le))
      (by rw [Registry.admits, renamed, held]; exact beq_self_eq_true _)
      (fun earlier before => grown.within.refused (refused earlier before))
  rw [again, Registry.insert_of_held (renamed.symm ▸ held)]

/-! ### Rendering again -/

mutual

/-- A shape that was rendered is rendered to the same type, with nothing new. -/
theorem Registry.renderShape_again (path : List String) (side : Side) (registry : Registry)
    {later : Registry} : ∀ shape : Shape,
      (registry.renderShape path side shape).2.ExtendsTo later →
        later.renderShape path side shape = ((registry.renderShape path side shape).1, later)
  | .string | .number | .boolean | .id none => fun _ => rfl
  | .id (some table) => fun extended => by
    rw [Registry.renderShape, Registry.register_again extended]
    rfl
  | .array ⟨shape, _, _⟩ => fun extended => by
    rw [Registry.renderShape] at extended
    rw [Registry.renderShape, Registry.renderShape_again (path ++ ["Item"]) side registry shape extended,
      Registry.renderShape]
  | .record _ ⟨shape, _, _⟩ => fun extended => by
    rw [Registry.renderShape] at extended
    rw [Registry.renderShape,
      Registry.renderShape_again (path ++ ["Value"]) side registry shape extended,
      Registry.renderShape]
  | .object fields => fun extended => by
    simp only [Registry.renderShape] at extended ⊢
    have inner := Registry.renderProperties_again path side generatedMembers registry fields
      ((Registry.extendsTo_register _ _).trans extended)
    simp only [inner, Registry.register_again extended]
  | .enumeration values => fun extended => by
    rw [Registry.renderShape, Registry.register_again extended]
    rfl
  | .any | .unknown _ _ => fun extended => by
    cases side with
    | decode =>
      have used : later.notingJsonValue = later := by
        rw [Registry.notingJsonValue, ← extended.usesJsonValue rfl]
      exact congrArg (Prod.mk _) used
    | encode => rfl

/-- Fields that were rendered are rendered to the same properties, with nothing new. -/
theorem Registry.renderProperties_again (path : List String) (side : Side) (taken : List String)
    (registry : Registry) {later : Registry} : ∀ fields : List Field,
      (registry.renderProperties path side taken fields).2.ExtendsTo later →
        later.renderProperties path side taken fields =
          ((registry.renderProperties path side taken fields).1, later)
  | [] => fun _ => rfl
  | ⟨name, _, _, ⟨shape, _, _⟩⟩ :: rest => fun extended => by
    simp only [Registry.renderProperties] at extended ⊢
    have first := Registry.renderShape_again (path ++ [name]) side registry shape
      ((Registry.extendsTo_renderProperties path side _ _ rest).trans extended)
    have others := Registry.renderProperties_again path side _ _ rest extended
    simp only [first, others]

end

/-! ### Renders in between -/

/-- The registry after further renders. -/
def Registry.after (registry : Registry) (requests : List Request) : Registry :=
  (registry.answers requests).2

theorem Registry.extendsTo_render (registry : Registry) (validator : Validator) (path : List String)
    (side : Side) : registry.ExtendsTo (registry.render validator path side).2 :=
  registry.extendsTo_renderShape path side validator.shape

theorem Registry.extendsTo_renderStruct (registry : Registry) (fields : List Field)
    (path : List String) (side : Side) :
    registry.ExtendsTo (registry.renderStruct fields path side).2 :=
  (registry.extendsTo_renderProperties path side generatedMembers fields).trans
    (Registry.extendsTo_register _ _)

/-- Renders, in whatever order, only add declarations. -/
theorem Registry.extendsTo_after (registry : Registry) (requests : List Request) :
    registry.ExtendsTo (registry.after requests) := by
  induction requests generalizing registry with
  | nil => exact .refl registry
  | cons request rest ih =>
    refine Registry.ExtendsTo.trans ?_ (ih (registry.answer request).2)
    cases request with
    | type validator path side => exact registry.extendsTo_render validator path side
    | struct fields path side => exact registry.extendsTo_renderStruct fields path side

/-- The call keeps all declarations as they are, where they are. Made once more, at once or after any
further renders, it gives the same answer and leaves the registry as it is. -/
def IsSettled {Answer : Type} (call : Registry → Answer × Registry) (registry : Registry) : Prop :=
  registry.declarations <+: (call registry).2.declarations ∧
    ∀ between : List Request,
      call ((call registry).2.after between) = ((call registry).1, (call registry).2.after between)

/-- **Rendering settles.** With every registry, rendering a validator, or the struct of an object's
fields, only adds declarations at the end, and whatever is rendered in between, rendering it again
answers the same type, wrapper and names and adds nothing. -/
theorem rendering_settles (registry : Registry) (path : List String) (side : Side) :
    (∀ validator : Validator, IsSettled (·.render validator path side) registry) ∧
      ∀ fields : List Field, IsSettled (·.renderStruct fields path side) registry := by
  refine ⟨fun validator => ⟨(registry.extendsTo_render validator path side).declarations, ?_⟩,
    fun fields => ⟨(registry.extendsTo_renderStruct fields path side).declarations, ?_⟩⟩
  · intro between
    have extended := (registry.render validator path side).2.extendsTo_after between
    have again := Registry.renderShape_again path side registry validator.shape extended
    simp only [Registry.render] at again ⊢
    rw [again]
  · intro between
    have extended := (registry.renderStruct fields path side).2.extendsTo_after between
    have inner := Registry.renderProperties_again path side generatedMembers registry fields
      ((Registry.extendsTo_register _ _).trans extended)
    simp only [Registry.renderStruct] at extended inner ⊢
    rw [inner]
    exact Registry.register_again extended

end SwiftBindings.Swift
