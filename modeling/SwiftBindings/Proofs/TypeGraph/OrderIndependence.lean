/-
**Exports do not depend on their order.**

What an exported value's type is should not depend on the exports that were asked for before it. It
does where a value's type asks for the type of a value that is being resolved: that one is opaque, and
the type that was resolved around it is remembered (`crossedValues_depend_on_order`). Where the fresh
run of an export is never cut short, and neither is the longer run in what the fresh one resolves, the
type has the same structure in both, unfolded to any depth (`exportedTree_eq`).
-/

import SwiftBindings.Proofs.TypeGraph.FollowingRuns

namespace SwiftBindings.TypeGraph

open Declared

/-! ### Unfolded structures -/

/-- The structure of a type, unfolded to some depth. -/
inductive Tree where
  /-- What lies deeper. -/
  | cut
  | primitive (keyword : Keyword)
  | stringLiteral (value : String)
  | numberLiteral (text : String)
  | booleanLiteral (value : Bool)
  | array (element : Tree)
  | tuple (elements : List Tree)
  | union (members : List Tree)
  | intersection (parts : List Tree)
  /-- Properties by key, each with whether it may be absent, and the type of further ones. -/
  | object (properties : List (String × Bool × Tree)) (index : Option Tree)
  | unresolved
  | opaqueType
  | pending

/-- The structure of a type, unfolded to a depth. -/
def Graph.unfold (graph : Graph) : Nat → TypeId → Tree
  | 0, _ => .cut
  | depth + 1, id =>
    match graph.kind id with
    | .primitive keyword => .primitive keyword
    | .stringLiteral value => .stringLiteral value
    | .numberLiteral text => .numberLiteral text
    | .booleanLiteral value => .booleanLiteral value
    | .array element => .array (graph.unfold depth element)
    | .tuple elements => .tuple (elements.map (graph.unfold depth))
    | .union members => .union (members.map (graph.unfold depth))
    | .intersection parts => .intersection (parts.map (graph.unfold depth))
    | .object shape =>
      .object (shape.properties.map fun property =>
        (property.name, property.optional, graph.unfold depth property.type))
        (shape.index.map (graph.unfold depth))
    | .unresolved => .unresolved
    | .opaqueType => .opaqueType
    | .pending => .pending

/-- The type of an exported value after other exports, unfolded to a depth. -/
def exportedTree (symbols : Symbols) (earlier : List String) (name : String) (depth : Nat) :
    Option Tree :=
  let result := exportType? symbols name (graphAfter symbols earlier .initial)
  result.1.map (result.2.unfold depth)

theorem map_eq_of_forall₂ {α β γ : Type} {relate : α → β → Prop} {left : α → γ} {right : β → γ}
    (same : ∀ first second, relate first second → left first = right second) {firsts : List α}
    {seconds : List β} (matching : List.Forall₂ relate firsts seconds) :
    firsts.map left = seconds.map right := by
  induction matching with
  | nil => rfl
  | cons head _ ih => rw [List.map_cons, List.map_cons, same _ _ head, ih]

/-- **A type and its image unfold to the same structure**, where no type is unfinished. -/
theorem Graph.Mirrors.unfold_eq {images : Images} {graph final : Graph}
    (mirrors : graph.Mirrors images final) (finished : ∀ id, graph.kind id ≠ .pending) (depth : Nat)
    {first second : TypeId} (maps : images.Maps first second) :
    graph.unfold depth first = final.unfold depth second := by
  induction depth generalizing first second with
  | zero => rfl
  | succ depth ih =>
    have inside : first < graph.nodes.size := by
      rw [← mirrors.size]
      exact (List.getElem?_eq_some_iff.mp maps).1
    have known : graph.isKnown first = true := by
      refine Graph.isKnown_iff.mpr ⟨⟨graph.text first, ?_⟩, finished first⟩
      rw [Graph.kind, Graph.text, Array.getElem?_eq_getElem inside]
      rfl
    have matching := mirrors.kinds first second maps known
    have same : ∀ left right, images.Maps left right →
        graph.unfold depth left = final.unfold depth right := fun _ _ maps => ih maps
    rw [Graph.unfold, Graph.unfold]
    revert matching
    generalize graph.kind first = left, final.kind second = right
    intro matching
    cases matching with
    | array element => exact congrArg Tree.array (ih element)
    | tuple elements => exact congrArg Tree.tuple (map_eq_of_forall₂ same elements)
    | union members => exact congrArg Tree.union (map_eq_of_forall₂ same members)
    | intersection parts => exact congrArg Tree.intersection (map_eq_of_forall₂ same parts)
    | object shape =>
      obtain ⟨properties, index⟩ := shape
      dsimp only
      rw [map_eq_of_forall₂ (fun left right matching => by
        rw [matching.name, matching.optional, ih matching.type]) properties]
      revert index
      rename_i shape shape'
      generalize shape.index = left, shape'.index = right
      rintro (maps | _)
      · rw [Option.map_some, Option.map_some, ih maps]
      · rfl
    | _ => rfl

/-! ### Runs of exports -/

theorem graphAfter_append (symbols : Symbols) (names others : List String) (graph : Graph) :
    graphAfter symbols (names ++ others) graph =
      graphAfter symbols others (graphAfter symbols names graph) :=
  List.foldl_append ..

theorem exportsClear_append (symbols : Symbols) (watch : Watch) (names others : List String)
    (graph : Graph) :
    exportsClear symbols watch (names ++ others) graph =
      (exportsClear symbols watch names graph &&
        exportsClear symbols watch others (graphAfter symbols names graph)) := by
  induction names generalizing graph with
  | nil => rfl
  | cons name rest ih =>
    show (_ && exportsClear symbols watch (rest ++ others) _) = (_ && _ && _)
    rw [ih, Bool.and_assoc]
    rfl

/-- Before any export, the type of methods is mirrored. -/
theorem Graph.mirrors_initial {final : Graph} (grows : Graph.initial.GrowsTo final) :
    Graph.initial.Mirrors [methodType] final where
  size := rfl
  method := rfl
  kinds first second maps _ := by
    have has : final.HasKind methodType .opaqueType := grows.hasKind ⟨"(method)", rfl⟩
    cases first with
    | zero =>
      cases maps
      rw [has.kind_eq]
      exact .opaqueType
    | succ _ => cases maps
  keywords _ _ found := by cases found
  literals _ _ found := by cases found
  instances _ _ found := by cases found
  values _ _ found := by cases found

/-- **Exports do not depend on their order**, as far as they are not cut short: where the fresh run
of an export is not, and no run of the same after other exports is in what the fresh one resolves, the
type of the export has the same structure, to any depth, as if nothing had been asked for before. -/
theorem exportedTree_eq (symbols : Symbols) (earlier : List String) (name : String)
    (fresh : exportsClear symbols .all [name] .initial = true)
    (later : exportsClear symbols (graphAfter symbols [name] .initial).resolvedNames
      (earlier ++ [name]) .initial = true) (depth : Nat) :
    exportedTree symbols earlier name depth = exportedTree symbols [] name depth := by
  have advances := graphAfter_advances _ _ fresh
  have advances' := graphAfter_advances _ _ later
  let runs : TwoRuns :=
    { symbols := symbols
      fresh := graphAfter symbols [name] .initial
      final := graphAfter symbols (earlier ++ [name]) .initial
      finished := ⟨advances'.recorded (Graph.recorded_initial symbols _), advances'.grows.finished⟩ }
  rw [exportsClear_append] at later
  have passed := (Bool.and_eq_true_iff.mp fresh).1
  have passed' := (Bool.and_eq_true_iff.mp (Bool.and_eq_true_iff.mp later).2).1
  have last : runs.final = (exportType? symbols name (graphAfter symbols earlier .initial)).2 :=
    graphAfter_append symbols earlier [name] .initial
  have first : runs.fresh = (exportType? symbols name .initial).2 := rfl
  rw [clearExport] at passed passed'
  rw [exportedTree, exportedTree]
  cases exported : symbols.exportedValue? name with
  | none =>
    rw [exportType?_of_none exported, exportType?_of_none exported]
    rfl
  | some localName =>
    rw [exported] at passed passed'
    rw [exportType?_of_some exported] at first last
    have follows := (follows_ofLevels runs symbols.levels symbols.levels).valueType localName
    obtain ⟨images, _, mirrors, maps⟩ := follows.ends [methodType] .initial
      (graphAfter symbols earlier .initial) trivial (Graph.mirrors_initial advances'.grows)
      (symbols.room_lt_levels _) (symbols.room_lt_levels _) passed passed'
      (first ▸ Graph.Continues.refl _) (last ▸ Graph.Continues.refl _)
    have finished : ∀ id, (valueType symbols localName .initial).2.kind id ≠ .pending := by
      rw [← first]
      exact advances.grows.finished
    have same := mirrors.unfold_eq finished depth maps
    rw [last] at same
    rw [exportType?_of_some exported, exportType?_of_some exported]
    exact congrArg some same.symm

/-- Two values of a type that mentions itself, and a value of their type. -/
def linkedValues : Symbols := .ofItems
  [.interface "Entry" [] []
      [.property "next" false (.union [.reference "Entry" [], .keyword .null]),
        .property "id" true (.reference "Id" [.stringLiteral "entries"])] false,
    .value "head" (.reference "Entry" []) true,
    .value "all" (.array (.query "head")) true]

/-- A type that mentions itself has the same structure after other exports. -/
theorem linkedValues_any_order :
    exportedTree linkedValues ["head"] "all" 8 = exportedTree linkedValues [] "all" 8 := by
  have fresh : exportsClear linkedValues .all ["all"] .initial = true := by decide +kernel
  have later : exportsClear linkedValues (graphAfter linkedValues ["all"] .initial).resolvedNames
      (["head"] ++ ["all"]) .initial = true := by decide +kernel
  exact exportedTree_eq linkedValues ["head"] "all" fresh later 8

/-- Two values whose types ask for each other's. -/
def crossedValues : Symbols := .ofItems
  [.value "a" (.object [.property "b" false (.query "b")]) true,
    .value "b" (.object [.property "a" false (.query "a")]) true]

/-- Where two values ask for each other's types, the order decides which one is opaque in the
other. -/
theorem crossedValues_depend_on_order :
    exportedTree crossedValues ["a"] "b" 3 ≠ exportedTree crossedValues [] "b" 3 := by
  intro same
  cases same

end SwiftBindings.TypeGraph
