/-
**Types of one structure.**

Two places of a graph hold the same type when they unfold to the same structure at every depth
(`Graph.SameType`). Such types have one kind of structure with the same types as parts
(`Graph.SameType.kinds`), so a walk over properties lists the same names with the same types
(`Graph.SameType.propertiesWithin`).
-/

import SwiftBindings.Proofs.TypeGraph.OrderIndependence

namespace SwiftBindings.TypeGraph

open Declared

/-- The types unfold to the same structure. -/
def Graph.SameType (graph : Graph) (first second : TypeId) : Prop :=
  ∀ depth, graph.unfold depth first = graph.unfold depth second

section SameType

variable {graph : Graph} {first second third : TypeId}

@[refl] theorem Graph.SameType.refl (graph : Graph) (id : TypeId) : graph.SameType id id :=
  fun _ => rfl

@[symm] theorem Graph.SameType.symm (same : graph.SameType first second) :
    graph.SameType second first :=
  fun depth => (same depth).symm

@[trans] theorem Graph.SameType.trans (same : graph.SameType first second)
    (same' : graph.SameType second third) : graph.SameType first third :=
  fun depth => (same depth).trans (same' depth)

/-- Lists whose images are equal under every one of some functions. -/
theorem forall₂_of_map_eq {ι α β γ : Type} [Nonempty ι] {left : ι → α → γ} {right : ι → β → γ}
    {firsts : List α} {seconds : List β}
    (same : ∀ i, firsts.map (left i) = seconds.map (right i)) :
    List.Forall₂ (fun first second => ∀ i, left i first = right i second) firsts seconds := by
  induction firsts generalizing seconds with
  | nil =>
    cases seconds with
    | nil => exact .nil
    | cons _ _ => simpa using same (Classical.arbitrary ι)
  | cons first rest ih =>
    cases seconds with
    | nil => simpa using same (Classical.arbitrary ι)
    | cons second others =>
      simp only [List.map_cons, List.cons.injEq] at same
      exact .cons (fun i => (same i).1) (ih fun i => (same i).2)

/-- **The same types have one structure** with the same types as parts, where they are finished. -/
theorem Graph.SameType.kinds (same : graph.SameType first second) :
    (graph.kind first).Matches graph.SameType (graph.kind second) ∨
      (graph.kind first = .pending ∧ graph.kind second = .pending) := by
  have unfolds : ∀ depth, graph.unfold (depth + 1) first = graph.unfold (depth + 1) second :=
    fun depth => same (depth + 1)
  simp only [Graph.unfold] at unfolds
  revert unfolds
  generalize graph.kind first = left, graph.kind second = right
  intro unfolds
  have top := unfolds 0
  -- Only structures of one constructor unfold to the same at the first level.
  cases left <;> cases right <;> simp only [reduceCtorEq] at top
  case primitive.primitive =>
    cases top
    exact .inl (.primitive _)
  case stringLiteral.stringLiteral =>
    cases top
    exact .inl (.stringLiteral _)
  case numberLiteral.numberLiteral =>
    cases top
    exact .inl (.numberLiteral _)
  case booleanLiteral.booleanLiteral =>
    cases top
    exact .inl (.booleanLiteral _)
  case array.array => exact .inl (.array fun depth => Tree.array.inj (unfolds depth))
  case tuple.tuple =>
    exact .inl (.tuple (forall₂_of_map_eq fun depth => Tree.tuple.inj (unfolds depth)))
  case union.union =>
    exact .inl (.union (forall₂_of_map_eq fun depth => Tree.union.inj (unfolds depth)))
  case intersection.intersection =>
    exact .inl (.intersection (forall₂_of_map_eq fun depth => Tree.intersection.inj (unfolds depth)))
  case object.object shape other =>
    have properties := forall₂_of_map_eq fun depth => (Tree.object.inj (unfolds depth)).1
    have index : ∀ depth, shape.index.map (graph.unfold depth) = other.index.map (graph.unfold depth) :=
      fun depth => (Tree.object.inj (unfolds depth)).2
    refine .inl (.object ⟨properties.imp fun left right matching => ?_, ?_⟩)
    · have entries : ∀ depth, left.name = right.name ∧ left.optional = right.optional ∧
          graph.unfold depth left.type = graph.unfold depth right.type :=
        fun depth => by simpa using matching depth
      exact ⟨(entries 0).1, (entries 0).2.1, fun depth => (entries depth).2.2⟩
    · revert index
      generalize shape.index = left, other.index = right
      intro index
      cases left <;> cases right
      · exact .none
      · cases index 0
      · cases index 0
      · exact .some fun depth => Option.some.inj (index depth)
  case unresolved.unresolved => exact .inl .unresolved
  case opaqueType.opaqueType => exact .inl .opaqueType
  case pending.pending => exact .inr ⟨rfl, rfl⟩

/-- Parts that have the same properties are merged to the same properties. -/
theorem foldl_mergeProperties_matches {relate : TypeId → TypeId → Prop} {list : TypeId → List Property}
    {firsts seconds : List TypeId} (parts : List.Forall₂ relate firsts seconds)
    (each : ∀ first second, relate first second →
      List.Forall₂ (Property.Matches relate) (list first) (list second))
    {merged merged' : List Property} (matching : List.Forall₂ (Property.Matches relate) merged merged') :
    List.Forall₂ (Property.Matches relate)
      (firsts.foldl (fun merged part => mergeProperties merged (list part)) merged)
      (seconds.foldl (fun merged part => mergeProperties merged (list part)) merged') := by
  induction parts generalizing merged merged' with
  | nil => exact matching
  | cons head _ ih => exact ih (mergeProperties_matches matching (each _ _ head))

/-- **The same types have the same properties.** -/
theorem Graph.SameType.propertiesWithin (levels : Nat) (same : graph.SameType first second) :
    List.Forall₂ (Property.Matches graph.SameType) (graph.propertiesWithin levels first)
      (graph.propertiesWithin levels second) := by
  have inherits := inherited_matches (Graph.SameType.refl graph methodType)
  induction levels generalizing first second with
  | zero => exact .nil
  | succ levels ih =>
    have kinds := same.kinds
    rw [Graph.propertiesWithin, Graph.propertiesWithin]
    revert kinds
    generalize graph.kind first = left, graph.kind second = right
    rintro (matching | ⟨rfl, rfl⟩)
    · cases matching with
      | object shape => exact shape.properties
      | primitive keyword =>
        cases keyword with
        | string => exact inherits _
        | number => exact inherits _
        | boolean => exact inherits _
        | _ => exact .nil
      | stringLiteral _ => exact inherits _
      | numberLiteral _ => exact inherits _
      | booleanLiteral _ => exact inherits _
      | intersection parts =>
        exact foldl_mergeProperties_matches parts (fun _ _ => ih) .nil
      | _ => exact .nil
    · exact .nil

end SameType

end SwiftBindings.TypeGraph
