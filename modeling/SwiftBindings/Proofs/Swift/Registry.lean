/-
**Laws of the registry.**

A registry only grows: what is found under a name stays there (`Registry.Within`), and no two of its
declarations have one name (`Registry.Distinct`). Registering a declaration answers a name under which
the declaration, renamed to it, is found from then on (`Registry.register_spec`): of the numbered names
that are tried no two are equal, so the registry cannot hold them all.
-/

import Mathlib.Data.List.Perm.Subperm
import Mathlib.Data.List.Nodup
import Mathlib.Data.Nat.Find
import SwiftBindings.Swift.Registry

namespace SwiftBindings.Swift

/-! ### Growth -/

/-- What is found in the first registry is found in the second. -/
def Registry.Within (earlier later : Registry) : Prop :=
  ∀ name declaration, earlier.find? name = some declaration → later.find? name = some declaration

theorem Registry.Within.refl (registry : Registry) : registry.Within registry :=
  fun _ _ found => found

theorem Registry.Within.trans {first second third : Registry} (before : first.Within second)
    (after : second.Within third) : first.Within third :=
  fun name declaration found => after name declaration (before name declaration found)

/-- No two declarations have one name. -/
def Registry.Distinct (registry : Registry) : Prop :=
  (registry.declarations.map Declaration.name).Nodup

theorem Registry.distinct_empty : Registry.empty.Distinct := List.nodup_nil

/-- A name is free exactly when no declaration has it. -/
theorem Registry.find?_eq_none_iff (registry : Registry) (name : String) :
    registry.find? name = none ↔ name ∉ registry.declarations.map Declaration.name := by
  rw [Registry.find?, List.find?_eq_none]
  constructor
  · rintro free member
    obtain ⟨declaration, inside, rfl⟩ := List.mem_map.mp member
    exact free declaration inside (beq_self_eq_true _)
  · intro free declaration inside same
    exact free (List.mem_map.mpr ⟨declaration, inside, beq_iff_eq.mp same⟩)

/-- The second registry is the first after some registrations: it holds what the first held, and no
name twice if the first held none twice. -/
structure Registry.GrowsTo (earlier later : Registry) : Prop where
  within : earlier.Within later
  distinct : earlier.Distinct → later.Distinct

theorem Registry.GrowsTo.refl (registry : Registry) : registry.GrowsTo registry :=
  ⟨Within.refl registry, id⟩

theorem Registry.GrowsTo.trans {first second third : Registry} (before : first.GrowsTo second)
    (after : second.GrowsTo third) : first.GrowsTo third :=
  ⟨before.within.trans after.within, fun distinct => after.distinct (before.distinct distinct)⟩

/-! ### Inserting -/

/-- A declaration is refused exactly where its name stands for another one. -/
theorem Registry.admits_eq_false_iff (registry : Registry) (declaration : Declaration) :
    registry.admits declaration = false ↔
      ∃ existing, registry.find? declaration.name = some existing ∧ existing ≠ declaration := by
  rw [Registry.admits]
  cases registry.find? declaration.name <;> simp

/-- Inserting a declaration whose name is held changes nothing. -/
theorem Registry.insert_of_held {registry : Registry} {declaration existing : Declaration}
    (held : registry.find? declaration.name = some existing) :
    registry.insert declaration = registry := by
  rw [Registry.insert, held]

/-- A declaration whose name is free, or stands for it already, is found after it is inserted. -/
theorem Registry.find?_insert {registry : Registry} {declaration : Declaration}
    (admitted : registry.admits declaration = true) :
    (registry.insert declaration).find? declaration.name = some declaration := by
  rw [Registry.admits] at admitted
  rw [Registry.insert]
  cases held : registry.find? declaration.name with
  | none =>
    show List.find? _ (registry.declarations ++ [declaration]) = _
    rw [List.find?_append]
    rw [Registry.find?] at held
    rw [held, Option.none_or, List.find?_singleton, beq_self_eq_true, if_pos rfl]
  | some existing =>
    rw [held] at admitted
    show registry.find? declaration.name = some declaration
    rw [held, beq_iff_eq.mp admitted]

theorem Registry.within_insert (registry : Registry) (declaration : Declaration) :
    registry.Within (registry.insert declaration) := by
  intro name existing found
  rw [Registry.insert]
  split
  · show List.find? _ (registry.declarations ++ [declaration]) = _
    rw [List.find?_append]
    rw [Registry.find?] at found
    rw [found, Option.some_or]
  · exact found

theorem Registry.Distinct.insert {registry : Registry} (distinct : registry.Distinct)
    (declaration : Declaration) : (registry.insert declaration).Distinct := by
  rw [Registry.insert]
  split
  · rename_i free
    show ((registry.declarations ++ [declaration]).map Declaration.name).Nodup
    rw [List.map_append, List.map_singleton]
    exact distinct.append (List.nodup_singleton _)
      (List.disjoint_singleton.mpr ((registry.find?_eq_none_iff _).mp free))
  · exact distinct

/-! ### Names to try -/

/-- Two numbers with one text are one. -/
theorem toString_nat_injective {first second : Nat} (same : toString first = toString second) :
    first = second := by
  have digits : Nat.toDigits 10 first = Nat.toDigits 10 second := by
    rw [← Nat.toList_repr, ← Nat.toList_repr]
    exact congrArg String.toList same
  rw [← @Nat.ofDigitChars_ten_toDigits first, digits, Nat.ofDigitChars_ten_toDigits]

/-- A number behind a name makes another name. -/
theorem append_toString_ne (base : String) (number : Nat) : base ++ toString number ≠ base := by
  intro same
  exact Nat.repr_ne_empty ((String.append_right_inj base).mp (same.trans (String.append_empty).symm))

/-- The names that are tried are all different. -/
theorem candidateName_injective (base : String) : Function.Injective (candidateName base) := by
  intro first second same
  rw [candidateName, candidateName] at same
  split at same <;> split at same
  · omega
  · exact absurd same.symm (append_toString_ne base _)
  · exact absurd same (append_toString_ne base _)
  · exact Nat.succ.inj (toString_nat_injective ((String.append_right_inj base).mp same))

/-- **Among one more name than there are declarations some name is free.** -/
theorem Registry.exists_free (registry : Registry) (base : String) :
    ∃ attempt < registry.declarations.length + 1,
      registry.find? (candidateName base attempt) = none := by
  by_contra occupied
  push Not at occupied
  have held : (List.range (registry.declarations.length + 1)).map (candidateName base) ⊆
      registry.declarations.map Declaration.name := by
    intro name tried
    obtain ⟨attempt, below, rfl⟩ := List.mem_map.mp tried
    by_contra free
    exact occupied attempt (List.mem_range.mp below) ((registry.find?_eq_none_iff _).mpr free)
  have distinct : ((List.range (registry.declarations.length + 1)).map (candidateName base)).Nodup :=
    List.nodup_range.map (candidateName_injective base)
  have bound := (List.subperm_of_subset distinct held).length_le
  rw [List.length_map, List.length_map, List.length_range] at bound
  omega

/-! ### Registering -/

/-- A declaration is registered under the first of its names that admits it. -/
theorem Registry.register_of_first {registry : Registry} {declaration : Declaration} {attempt : Nat}
    (below : attempt < registry.declarations.length + 1)
    (admitted : registry.admits (declaration.rename (candidateName declaration.name attempt)) = true)
    (refused : ∀ earlier < attempt,
      registry.admits (declaration.rename (candidateName declaration.name earlier)) = false) :
    registry.register declaration =
      (candidateName declaration.name attempt,
        registry.insert (declaration.rename (candidateName declaration.name attempt))) := by
  have first : (List.range (registry.declarations.length + 1)).find? (registry.admits ∘
      fun attempt => declaration.rename (candidateName declaration.name attempt)) =
        some attempt :=
    List.find?_range_eq_some.mpr ⟨admitted, List.mem_range.mpr below, fun earlier before => by
      rw [Function.comp, refused earlier before, Bool.not_false]⟩
  simp only [Registry.register, List.find?_map, first, Option.map_some, Declaration.name_rename]

/-- Some name admits the declaration, and it is registered under the first one that does. -/
theorem Registry.register_eq_first (registry : Registry) (declaration : Declaration) :
    ∃ attempt < registry.declarations.length + 1,
      registry.admits (declaration.rename (candidateName declaration.name attempt)) = true ∧
      (∀ earlier < attempt,
        registry.admits (declaration.rename (candidateName declaration.name earlier)) = false) ∧
      registry.register declaration =
        (candidateName declaration.name attempt,
          registry.insert (declaration.rename (candidateName declaration.name attempt))) := by
  obtain ⟨free, below, unheld⟩ := registry.exists_free declaration.name
  have unopposed : registry.admits (declaration.rename (candidateName declaration.name free)) = true := by
    rw [Registry.admits, Declaration.name_rename, unheld]
  have admitted : ∃ attempt,
      registry.admits (declaration.rename (candidateName declaration.name attempt)) = true :=
    ⟨free, unopposed⟩
  have first : Nat.find admitted < registry.declarations.length + 1 :=
    lt_of_le_of_lt (Nat.find_min' admitted unopposed) below
  have refused : ∀ earlier < Nat.find admitted,
      registry.admits (declaration.rename (candidateName declaration.name earlier)) = false :=
    fun _ before => Bool.eq_false_iff.mpr (Nat.find_min admitted before)
  exact ⟨_, first, Nat.find_spec admitted, refused,
    Registry.register_of_first first (Nat.find_spec admitted) refused⟩

/-- Registering inserts the declaration under a name of its own or a numbered one that admits it. -/
theorem Registry.register_eq (registry : Registry) (declaration : Declaration) :
    ∃ attempt, registry.admits (declaration.rename (candidateName declaration.name attempt)) = true ∧
      registry.register declaration =
        (candidateName declaration.name attempt,
          registry.insert (declaration.rename (candidateName declaration.name attempt))) := by
  obtain ⟨attempt, _, admitted, _, same⟩ := registry.register_eq_first declaration
  exact ⟨attempt, admitted, same⟩

/-- **Registering answers a name under which the declaration is found from then on**: its own name,
or its own with a number. Nothing that was registered is lost. -/
theorem Registry.register_spec (registry : Registry) (declaration : Declaration) :
    (∃ attempt, (registry.register declaration).1 = candidateName declaration.name attempt) ∧
      (registry.register declaration).2.find? (registry.register declaration).1 =
        some (declaration.rename (registry.register declaration).1) ∧
      registry.GrowsTo (registry.register declaration).2 := by
  obtain ⟨attempt, admitted, same⟩ := registry.register_eq declaration
  rw [same]
  have found := Registry.find?_insert admitted
  rw [Declaration.name_rename] at found
  exact ⟨⟨attempt, rfl⟩, found, registry.within_insert _, fun distinct => distinct.insert _⟩

end SwiftBindings.Swift
