/-
**Roots that filter an interface.**

Discovery and filters go through an interface each in its own way: the walk of discovery enters no
namespace within itself and counts the namespaces it is in, a filter counts its own levels and puts the
namespaces together again. For an interface that both can go through to its ends (`IsInterface`) they
agree on what is there.

**The main statement.** `filter_only_filters`: where a root's filter is not cut short
(`FilterRun.IsUncut`), discovery below the root answers the functions below the filtered interface that
have the wanted visibility, in their order, and no others. `filters_cut_short` has two files where it is
cut short and discovery answers too much or too little.
-/

import SwiftBindings.Proofs.Api.FilterRuns

set_option linter.unusedSectionVars false

namespace SwiftBindings.Api

open Declared Relation TypeGraph

/-! ### Interfaces -/

/-- A namespace with functions below it that discovery and filters both reach: no namespace stands
within itself, none of the references has more names than a filter has levels, and what is marked as a
reference is one. -/
structure IsInterface (graph : Graph) (id : TypeId) : Prop where
  space : IsNamespace graph id
  acyclic : IsAcyclic graph id
  marked : IsMarkedWell graph id
  shallow : ∀ levels, ∀ reference ∈ referencesWithin graph levels id,
    reference.1.length ≤ walkDepth
  inhabited : ∃ levels, referencesWithin graph levels id ≠ []

section Interface

variable {graph : Graph} {id : TypeId} (interface : IsInterface graph id)

include interface

theorem IsInterface.references_eq {levels : Nat} (enough : walkDepth ≤ levels) :
    referencesWithin graph levels id = referencesWithin graph walkDepth id := by
  obtain ⟨more, rfl⟩ := Nat.exists_eq_add_of_le enough
  exact referencesWithin_eq_of_shallow more (interface.shallow _)

theorem IsInterface.references_ne_nil : referencesWithin graph walkDepth id ≠ [] := by
  intro none
  obtain ⟨levels, some⟩ := interface.inhabited
  rcases Nat.le_total levels walkDepth with fewer | more
  · obtain ⟨more, deep⟩ := Nat.exists_eq_add_of_le fewer
    refine some ((filter_referencesWithin levels more id).symm.trans ?_)
    rw [← deep, none, List.filter_nil]
  · exact some ((interface.references_eq more).trans none)

end Interface

/-! ### Layers -/

/-- Whether the namespaces below a type lie within fewer than the given number of layers, and what is
marked as a reference is one. -/
def isLayered (graph : Graph) : Nat → TypeId → Bool
  | 0, _ => false
  | levels + 1, id =>
    isFunctionReference graph id || (!graph.isMarkedReference id &&
      (!graph.isStructured id || (graph.properties id).all fun property =>
        isLayered graph levels property.type))

section Layers

variable {graph : Graph} {id inner : TypeId} {levels : Nat}

theorem isLayered_contains (layered : isLayered graph (levels + 1) id = true)
    (contains : Contains graph id inner) : isLayered graph levels inner = true := by
  obtain ⟨⟨structured, other⟩, property, member, rfl⟩ := contains
  rw [isLayered, other, structured, Bool.false_or, Bool.not_true, Bool.false_or] at layered
  exact List.all_eq_true.mp (Bool.and_eq_true_iff.mp layered).2 property member

/-- What is further in lies within fewer layers. -/
theorem isLayered_further (layered : isLayered graph levels id = true)
    (further : TransGen (Contains graph) id inner) :
    ∃ fewer < levels, isLayered graph fewer inner = true := by
  induction further with
  | single contains =>
    cases levels with
    | zero => cases layered
    | succ levels => exact ⟨levels, Nat.lt_succ_self _, isLayered_contains layered contains⟩
  | tail _ contains ih =>
    obtain ⟨fewer, less, there⟩ := ih
    cases fewer with
    | zero => cases there
    | succ fewer => exact ⟨fewer, Nat.lt_of_succ_lt less, isLayered_contains there contains⟩

theorem isLayered_reached (layered : isLayered graph levels id = true)
    (reached : ReflTransGen (Contains graph) id inner) :
    ∃ fewer, isLayered graph fewer inner = true := by
  rcases reflTransGen_iff_eq_or_transGen.mp reached with rfl | further
  · exact ⟨levels, layered⟩
  · obtain ⟨fewer, _, there⟩ := isLayered_further layered further
    exact ⟨fewer, there⟩

/-- What lies within layers does not stand within itself: it would lie within fewer and fewer. -/
theorem isLayered_irrefl (layered : isLayered graph levels id = true) :
    ¬TransGen (Contains graph) id id := by
  intro itself
  induction levels using Nat.strong_induction_on with
  | h levels ih =>
    obtain ⟨fewer, less, there⟩ := isLayered_further layered itself
    exact ih fewer less there

/-- References within layers have fewer names than there are layers. -/
theorem isLayered_length (space : IsNamespace graph id) (layered : isLayered graph levels id = true)
    {more : Nat} {reference : Reference} (member : reference ∈ referencesWithin graph more id) :
    reference.1.length < levels := by
  induction more generalizing id levels reference with
  | zero => cases member
  | succ more ih =>
    obtain ⟨property, held, inside⟩ := List.mem_flatMap.mp member
    obtain ⟨other, held', rfl⟩ := List.mem_map.mp inside
    cases levels with
    | zero => cases layered
    | succ levels =>
      have further := isLayered_contains layered ⟨space, property, held, rfl⟩
      refine Nat.succ_lt_succ ?_
      split at held'
      · cases List.mem_singleton.mp held'
        cases levels with
        | zero => cases further
        | succ levels => exact Nat.succ_pos _
      · rename_i refers
        split at held'
        · rename_i structured
          exact ih ⟨structured, Bool.eq_false_iff.mpr refers⟩ further held'
        · cases held'

/-- Whether a type is a namespace with references below it, all within few layers. -/
def showsInterface (graph : Graph) (id : TypeId) : Bool :=
  graph.isStructured id && !isFunctionReference graph id &&
    (isLayered graph (walkDepth + 1) id && !(referencesWithin graph walkDepth id).isEmpty)

theorem isInterface_of_showsInterface (shows : showsInterface graph id = true) :
    IsInterface graph id := by
  obtain ⟨space, below⟩ := Bool.and_eq_true_iff.mp shows
  obtain ⟨structured, other⟩ := Bool.and_eq_true_iff.mp space
  obtain ⟨layered, some⟩ := Bool.and_eq_true_iff.mp below
  have space : IsNamespace graph id := ⟨structured, (Bool.not_eq_true' _).mp other⟩
  refine ⟨space, fun inner reached => ?_, fun inner reached marked => ?_, fun _ _ member => ?_,
    ⟨walkDepth, List.isEmpty_eq_false_iff.mp ((Bool.not_eq_true' _).mp some)⟩⟩
  · obtain ⟨_, there⟩ := isLayered_reached layered reached
    exact isLayered_irrefl there
  · obtain ⟨levels, there⟩ := isLayered_reached layered reached
    cases levels with
    | zero => cases there
    | succ levels =>
      rw [isLayered, marked, Bool.not_true, Bool.false_and, Bool.or_false] at there
      exact there
  · exact Nat.le_of_lt_succ (isLayered_length space layered member)

end Layers

/-! ### Functions of references -/

/-- The functions below an interface, each with the type that it is found at. -/
def foundBelow (graph : Graph) (root : String) (id : TypeId) : List (Function × TypeId) :=
  (referencesWithin graph walkDepth id).filterMap fun reference =>
    (functionAt? graph root reference.1 reference.2).map fun function => (function, reference.2)

/-- The functions below an interface that have the visibility, as functions of another root. -/
def wantedBelow (graph : Graph) (root other visibility : String) (id : TypeId) : List Function :=
  ((foundBelow graph root id).filter fun entry =>
    graph.literalProperty? entry.2 "_visibility" == some visibility).map fun entry =>
      { entry.1 with root := other }

section Found

variable {graph : Graph} {id : TypeId}

theorem functionAt?_isSome (refers : isFunctionReference graph id = true) (root : String)
    (path : List String) : (functionAt? graph root path id).isSome = true := by
  have has := exists_property_of_isFunctionReference graph refers
  obtain ⟨_, kind⟩ := has "_type" (by decide)
  obtain ⟨_, visibility⟩ := has "_visibility" (by decide)
  obtain ⟨_, arguments⟩ := has "_args" (by decide)
  obtain ⟨_, result⟩ := has "_returnType" (by decide)
  rw [functionAt?]
  dsimp only
  rw [kind, visibility, arguments, result]
  rfl

/-- The root of a function is all that depends on the root. -/
theorem functionAt?_root (root other : String) (path : List String) :
    functionAt? graph other path id =
      (functionAt? graph root path id).map fun function => { function with root := other } := by
  rw [functionAt?, functionAt?]
  dsimp only
  cases graph.property? id "_type" with
  | none => rfl
  | some _ =>
    cases graph.property? id "_visibility" with
    | none => rfl
    | some _ =>
      cases graph.property? id "_args" with
      | none => rfl
      | some _ =>
        cases graph.property? id "_returnType" with
        | none => rfl
        | some _ => rfl

theorem map_fst_foundBelow (root : String) : (foundBelow graph root id).map Prod.fst =
    (referencesWithin graph walkDepth id).filterMap fun reference =>
      functionAt? graph root reference.1 reference.2 := by
  rw [foundBelow, List.map_filterMap]
  refine List.filterMap_congr fun reference _ => ?_
  cases functionAt? graph root reference.1 reference.2 with
  | none => rfl
  | some function => rfl

/-- The wanted functions are those of the wanted references. -/
theorem wantedBelow_eq (root other visibility : String) : wantedBelow graph root other visibility id =
    ((referencesWithin graph walkDepth id).filter (isWanted graph visibility)).filterMap
      fun reference => functionAt? graph other reference.1 reference.2 := by
  rw [wantedBelow, foundBelow, List.filter_filterMap, List.map_filterMap, List.filterMap_filter]
  refine List.filterMap_congr fun reference _ => ?_
  rw [functionAt?_root root other, isWanted]
  cases functionAt? graph root reference.1 reference.2 with
  | none =>
    split
    · rfl
    · rfl
  | some function =>
    rw [Option.map_some, Option.filter_some]
    split
    · rfl
    · rfl

/-- References of a namespace all have functions. -/
theorem filterMap_functionAt?_eq_nil {references : List Reference} (root : String)
    (refer : ∀ reference ∈ references, isFunctionReference graph reference.2 = true) :
    (references.filterMap fun reference => functionAt? graph root reference.1 reference.2) = [] ↔
      references = [] := by
  refine ⟨fun none => ?_, fun none => none ▸ rfl⟩
  refine List.eq_nil_iff_forall_not_mem.mpr fun reference member => ?_
  have found := functionAt?_isSome (refer reference member) root reference.1
  rw [List.filterMap_eq_nil_iff.mp none reference member] at found
  cases found

end Found

/-! ### Discovery below roots -/

section Discovery

variable {symbols : Symbols} {names before : List String} {root : String} {id : TypeId}

/-- Discovery below a root answers the functions that are below it at the end of the run, where there
are some or the root is a namespace without properties. -/
theorem functionsOfRoot_askedFor (asked : AskedFor symbols names before root id)
    {functions : List Function}
    (below : functionsBelow (graphAfter symbols names .initial) root id = functions)
    (has : functions = [] → (graphAfter symbols names .initial).isStructured id = true ∧
      (graphAfter symbols names .initial).properties id = []) :
    functionsOfRoot symbols (graphAfter symbols before .initial) root =
      .ok (functions, graphAfter symbols (before ++ [root]) .initial) := by
  have settled := (graphAfter_wellFormed symbols (before ++ [root])).settled
  have earlier := functionsBelow_later settled asked.continues asked.lt_size root
  refine functionsOfRoot_eq_ok.mpr ⟨id, asked.exportType?_eq, below.symm.trans earlier, ?_⟩
  by_cases none : functions = []
  · obtain ⟨structured, empty⟩ := has none
    rw [asked.continues.isStructured_eq (settled.isKnown asked.lt_size)] at structured
    rw [asked.continues.properties_eq (settled.knowsProperties asked.lt_size)] at empty
    exact .inr ⟨structured, empty⟩
  · refine .inl (not_not.mp fun without => none ?_)
    rw [← below, earlier]
    exact (functionsBelow_recordsChains _ root id).eq_nil_iff.mpr without

/-- Discovery below a root of an interface answers the functions of the interface. -/
theorem functionsOfRoot_interface (asked : AskedFor symbols names before root id)
    (interface : IsInterface (graphAfter symbols names .initial) id) :
    functionsOfRoot symbols (graphAfter symbols before .initial) root =
      .ok ((foundBelow (graphAfter symbols names .initial) root id).map Prod.fst,
        graphAfter symbols (before ++ [root]) .initial) := by
  have deeper : walkDepth ≤ namespaceDepth + 1 := by decide
  refine functionsOfRoot_askedFor asked ?_ fun none => ?_
  · rw [functionsBelow_eq root interface.space interface.acyclic, interface.references_eq deeper,
      map_fst_foundBelow]
  · rw [map_fst_foundBelow,
      filterMap_functionAt?_eq_nil root fun _ => isFunctionReference_of_mem] at none
    exact absurd none interface.references_ne_nil

end Discovery

/-- Discovery below a root that filters an interface answers the functions of the interface that have the
visibility, where the resolution of the root is not cut short. -/
theorem functionsOfRoot_filtered {items : List Item} (leaves : LeavesFilters items)
    {names before : List String} {other visibility : String} {api id : TypeId} (root : String)
    (part : AskedFor (.ofItems items) names before other id)
    (interface : IsInterface (graphAfter (.ofItems items) names .initial) api)
    {run : FilterRun (.ofItems items) other visibility}
    (resolves : run.Resolves (graphAfter (.ofItems items) names .initial) id)
    (same : run.api.1 = api) (uncut : run.IsUncut) :
    functionsOfRoot (.ofItems items) (graphAfter (.ofItems items) before .initial) other =
      .ok (wantedBelow (graphAfter (.ofItems items) names .initial) root other visibility api,
        graphAfter (.ofItems items) (before ++ [other]) .initial) := by
  let symbols : Symbols := .ofItems items
  let graph := graphAfter symbols names .initial
  subst same
  have provides := leaves.provides
  have structured := interface.space.1
  have literal := run.literal_eq provides uncut resolves.continues
    (graphAfter_recorded symbols names).2 (graphAfter_wellFormed symbols names).settled.finished structured
  have continues : (filteredType run.api.1 run.filter.1 run.filter.2).2.Continues graph :=
    run.filtered_eq provides ▸ resolves.continues
  obtain ⟨rebuilt, references, empty⟩ := filteredType_keeps literal uncut.complete interface.space
    interface.marked (run.isStructured_api provides uncut resolves.continues structured) continues
  rw [← run.filtered_eq provides, resolves.answers] at rebuilt references empty
  refine functionsOfRoot_askedFor part ?_ fun none => ⟨rebuilt.isNamespace.1, ?_⟩
  · have deeper : walkDepth < namespaceDepth + 1 := by decide
    rw [functionsBelow_eq other rebuilt.isNamespace rebuilt.isAcyclic, wantedBelow_eq]
    exact congrArg _ (references _ deeper)
  · rw [wantedBelow_eq, filterMap_functionAt?_eq_nil other fun reference member =>
      isFunctionReference_of_mem (List.mem_filter.mp member).1] at none
    exact empty none

/-- **A filter only filters.** Discovery answers for a root of an interface the functions below it. Behind
the type of a root that filters stands a resolution, which is not cut short where the root has not been
asked for before; and where the resolution is of a filter of the interface and not cut short, discovery
answers for the root those of the functions that have the visibility: in the same order, and with the same
paths, kinds, arguments and results. -/
theorem filter_only_filters {items : List Item} (leaves : LeavesFilters items)
    {names before before' : List String} {root other localName visibility : String} {target : TypeExpr}
    {api id : TypeId} (whole : AskedFor (.ofItems items) names before root api)
    (part : AskedFor (.ofItems items) names before' other id)
    (exported : (Symbols.ofItems items).exportedValue? other = some localName)
    (declares : (Symbols.ofItems items).value? localName = some (filterType target visibility))
    (interface : IsInterface (graphAfter (.ofItems items) names .initial) api) :
    functionsOfRoot (.ofItems items) (graphAfter (.ofItems items) before .initial) root =
        .ok ((foundBelow (graphAfter (.ofItems items) names .initial) root api).map Prod.fst,
          graphAfter (.ofItems items) (before ++ [root]) .initial) ∧
      (∃ run : FilterRun (.ofItems items) other visibility, run.target = target ∧
        run.Resolves (graphAfter (.ofItems items) names .initial) id ∧
          ((graphAfter (.ofItems items) before' .initial).values.lookup localName = none →
            run.IsUncut)) ∧
      ∀ run : FilterRun (.ofItems items) other visibility,
        run.Resolves (graphAfter (.ofItems items) names .initial) id → run.api.1 = api → run.IsUncut →
          functionsOfRoot (.ofItems items) (graphAfter (.ofItems items) before' .initial) other =
            .ok (wantedBelow (graphAfter (.ofItems items) names .initial) root other visibility api,
              graphAfter (.ofItems items) (before' ++ [other]) .initial) :=
  ⟨functionsOfRoot_interface whole interface, exists_filterRun leaves.provides part exported declares,
    fun _ resolves same uncut => functionsOfRoot_filtered leaves root part interface resolves same uncut⟩

/-! ### Filters at work -/

/-- A reference to a query of a visibility, as written. -/
def queryType (visibility : String) (arguments : TypeExpr) : TypeExpr :=
  .reference "FunctionReference" [.stringLiteral "query", .stringLiteral visibility, arguments]

/-- An interface with a namespace in it, and the interface filtered. -/
def nestedFilter : List Item :=
  [.value "a" (.object [.property "f" false (queryType "public" (.keyword .string)),
      .property "n" false (.object [.property "g" false (queryType "internal" (.keyword .number)),
        .property "h" false (queryType "public" (.keyword .boolean))])]) true,
    .value "b" (filterType (.query "a") "public") true]

/-- The resolution of the filtered interface, which is asked for after the interface. -/
def nestedFilterRun : FilterRun (.ofItems nestedFilter) "b" "public" :=
  .first (rfl : Symbols.exportedValue? (.ofItems nestedFilter) "b" = some "b") rfl
    (graphAfter_wellFormed (.ofItems nestedFilter) ["a"]).resolving

/-- Two of three functions are public. -/
theorem nestedFilter_only_filters :
    (nestedFilterRun.IsUncut ∧
      IsInterface (graphAfter (.ofItems nestedFilter) ["a", "b"] .initial) 19) ∧
    functionsOfRoot (.ofItems nestedFilter) .initial "a" = .ok
      ([⟨"a", "f", .query, .everyone, 3, 5⟩, ⟨"a", "n.g", .query, .internal, 10, 5⟩,
        ⟨"a", "n.h", .query, .everyone, 14, 5⟩], graphAfter (.ofItems nestedFilter) ["a"] .initial) ∧
    functionsOfRoot (.ofItems nestedFilter) (graphAfter (.ofItems nestedFilter) ["a"] .initial) "b" = .ok
      ([⟨"b", "f", .query, .everyone, 3, 5⟩, ⟨"b", "n.h", .query, .everyone, 14, 5⟩],
        graphAfter (.ofItems nestedFilter) ["a", "b"] .initial) := by
  have leaves : LeavesFilters nestedFilter := by decide
  have whole : AskedFor (.ofItems nestedFilter) ["a", "b"] [] "a" 19 := ⟨by decide, by decide +kernel⟩
  have part : AskedFor (.ofItems nestedFilter) ["a", "b"] ["a"] "b" 24 := ⟨by decide, by decide +kernel⟩
  have uncut : nestedFilterRun.IsUncut := FilterRun.isUncut_first rfl rfl leaves.provides
    (graphAfter_wellFormed _ ["a"]) (graphAfter_recorded _ ["a"]).2
  have interface : IsInterface (graphAfter (.ofItems nestedFilter) ["a", "b"] .initial) 19 :=
    isInterface_of_showsInterface (by decide +kernel)
  obtain ⟨all, -, wanted⟩ := filter_only_filters leaves whole part rfl rfl interface
  have found := wanted nestedFilterRun (FilterRun.resolves_first rfl rfl part (by decide +kernel))
    (by decide +kernel) uncut
  have below : (foundBelow (graphAfter (.ofItems nestedFilter) ["a", "b"] .initial) "a" 19).map Prod.fst =
      [⟨"a", "f", .query, .everyone, 3, 5⟩, ⟨"a", "n.g", .query, .internal, 10, 5⟩,
        ⟨"a", "n.h", .query, .everyone, 14, 5⟩] := by decide +kernel
  have visible : wantedBelow (graphAfter (.ofItems nestedFilter) ["a", "b"] .initial) "a" "b" "public"
      19 = [⟨"b", "f", .query, .everyone, 3, 5⟩, ⟨"b", "n.h", .query, .everyone, 14, 5⟩] := by
    decide +kernel
  rw [below] at all
  rw [visible] at found
  exact ⟨⟨uncut, interface⟩, all, found⟩

/-! ### Filters that are cut short -/

/-- A root is declared as the interface of another root filtered, and discovery answers other functions
below it than the functions of the interface that have the visibility. -/
structure Misfilters (items : List Item) (names before before' : List String)
    (root other visibility : String) (api : TypeId) : Prop where
  leaves : LeavesFilters items
  declares : (Symbols.ofItems items).exportedValue? other = some other ∧
    (Symbols.ofItems items).value? other = some (filterType (.query root) visibility)
  whole : AskedFor (.ofItems items) names before root api
  interface : IsInterface (graphAfter (.ofItems items) names .initial) api
  answers : functionsOfRoot (.ofItems items) (graphAfter (.ofItems items) before .initial) root =
    .ok ((foundBelow (graphAfter (.ofItems items) names .initial) root api).map Prod.fst,
      graphAfter (.ofItems items) (before ++ [root]) .initial)
  among : before' ++ [other] <+: names
  differs : functionsOfRoot (.ofItems items) (graphAfter (.ofItems items) before' .initial) other ≠
    .ok (wantedBelow (graphAfter (.ofItems items) names .initial) root other visibility api,
      graphAfter (.ofItems items) (before' ++ [other]) .initial)

/-- The filtered interface is asked for at the greatest depth, where the filter sees no visibility. -/
def deepFilter : List Item :=
  [.typeAlias "F" [⟨"T", none⟩]
      (.object [.property "n" false (.reference "F" [.array (.reference "T" [])]),
        .property "t" false (.query "b")]) false,
    .value "a" (.object [.property "f" false (queryType "public" (.keyword .any)),
      .property "g" false (queryType "internal" (.keyword .any))]) true,
    .value "b" (filterType (.query "a") "public") true,
    .value "c" (.object [.property "k" false
      (queryType "public" (.reference "F" [.keyword .string]))]) true]

/-- The filtered interface is asked for from within the interface, while its namespace is being
resolved. -/
def pendingFilter : List Item :=
  [.typeAlias "I" []
      (.object [.property "f" false (queryType "public" (.keyword .any)),
        .property "t" false (.query "b")]) false,
    .value "a" (.object [.property "i" false (.reference "I" [])]) true,
    .value "b" (filterType (.query "a") "public") true,
    .value "c" (.reference "I" []) true]

/-- An answer with other functions is another answer. -/
theorem ne_ok_of_functions {answer : Except Failure (List Function × Graph)}
    {functions : List Function} {graph : Graph}
    (other : answer.toOption.map Prod.fst ≠ some functions) : answer ≠ .ok (functions, graph) :=
  fun same => other (same ▸ rfl)

/-- A filter that is cut short keeps functions that are not wanted, or loses some that are. -/
theorem filters_cut_short :
    Misfilters deepFilter ["a", "c", "b"] [] ["a", "c"] "a" "b" "public" 13 ∧
      Misfilters pendingFilter ["c", "a", "b"] ["c"] ["c", "a"] "a" "b" "public" 10 := by
  constructor
  · have whole : AskedFor (.ofItems deepFilter) ["a", "c", "b"] [] "a" 13 :=
      ⟨by decide, by decide +kernel⟩
    have interface : IsInterface (graphAfter (.ofItems deepFilter) ["a", "c", "b"] .initial) 13 :=
      isInterface_of_showsInterface (by decide +kernel)
    exact ⟨by decide, ⟨rfl, rfl⟩, whole, interface, functionsOfRoot_interface whole interface,
      by decide, ne_ok_of_functions (by decide +kernel)⟩
  · have whole : AskedFor (.ofItems pendingFilter) ["c", "a", "b"] ["c"] "a" 10 :=
      ⟨by decide, by decide +kernel⟩
    have interface : IsInterface (graphAfter (.ofItems pendingFilter) ["c", "a", "b"] .initial) 10 :=
      isInterface_of_showsInterface (by decide +kernel)
    exact ⟨by decide, ⟨rfl, rfl⟩, whole, interface, functionsOfRoot_interface whole interface,
      by decide, ne_ok_of_functions (by decide +kernel)⟩

end SwiftBindings.Api
