/-
**Resolutions of filters.**

A root may be declared as the functions of an interface that have one visibility (`filterType`). Its type
is resolved once, at some moment of the run (`FilterRun`), and there the filter sees what is known at that
moment: it sees no visibility where the reference it is declared with is nested too deeply, and nothing
of types that are still being resolved. Where neither happens the filter is not cut short
(`FilterRun.IsUncut`), and the visibility that it sees is the one it is declared with
(`FilterRun.literal_eq`).

Behind every such root stands a resolution, and that of a root which is asked for first between two
exports is not cut short (`exists_filterRun`).
-/

import SwiftBindings.Proofs.Api.Filter
import SwiftBindings.Proofs.Reduction.OriginRuns
import SwiftBindings.Proofs.TypeGraph.OrderIndependence

set_option linter.unusedSectionVars false

namespace SwiftBindings.Api

open Declared TypeGraph

/-! ### Declared types that are nested -/

section Nested

variable {symbols : Symbols} {levels : Nat} {name : String} {arguments : List TypeId} {graph : Graph}

/-- A declared type may be watched where it is not nested too deeply: it is entered there. -/
theorem clearInstantiate_shallow (symbols : Symbols) (levels : Nat) (name : String)
    (arguments : List TypeId) (graph : Graph) :
    clearInstantiate symbols .none (.ofLevels symbols levels) (.ofLevels symbols .none levels)
      (decide (graph.depth < maximalDepth)) name arguments graph = true := by
  rw [clearInstantiate]
  split
  · rfl
  · split
    · rfl
    · split
      · rename_i deep
        rw [decide_eq_false (Nat.not_lt_of_le deep)]
        rfl
      · exact congrFun (clearDefinition_unwatched (Clear.passes_ofLevels symbols levels) _ _) _

/-- A declared type that is asked for is remembered, unless it is nested too deeply. -/
theorem instantiateWith_remembers {definition : Definition}
    (declares : symbols.type? name = some definition) (enough : symbols.room graph < levels + 1) :
    let answer := instantiateWith symbols (.ofLevels symbols levels) name arguments graph
    (answer.2.instances.lookup ⟨name, arguments⟩ = some answer.1 ∧ graph.GrowsTo answer.2) ∨
      (maximalDepth ≤ graph.depth ∧ answer.2.kind answer.1 = .opaqueType) := by
  have passed := clearInstantiate_shallow symbols levels name arguments graph
  have grows := (keeps_instantiateWith (Deeper.keeps_ofLevels symbols .none levels) _ name arguments
    graph enough passed).grows
  have reached := instantiateWith_cases enough passed
  generalize instantiateWith symbols _ name arguments graph = answer at grows reached ⊢
  cases reached with
  | remembered found => exact .inl ⟨found, grows⟩
  | undeclared unknown _ => cases unknown.symm.trans declares
  | deep unwatched text =>
    exact .inr ⟨Nat.le_of_not_lt (of_decide_eq_false unwatched),
      (allocate_hasKind .opaqueType text graph).kind_eq⟩
  | resolved free run level before =>
    have further := Deeper.keeps_ofLevels symbols .none run.levels
    have within := ((run.bound_advances further).trans (run.body_advances further)).grows
    rw [before] at within
    refine .inl ⟨within.instances _ _ ?_, grows⟩
    rw [enterInstance_eq, List.lookup_cons_self]

end Nested

/-! ### References of the framework -/

/-- References to functions of any kind with one visibility, as written. -/
def visibilityType (visibility : String) : TypeExpr :=
  .reference "FunctionReference" [.keyword .any, .stringLiteral visibility]

/-- The functions of a type with one visibility, as written. -/
def filterType (target : TypeExpr) (visibility : String) : TypeExpr :=
  .reference "FilterApi" [target, visibilityType visibility]

/-- A file that declares neither filters nor references to functions. -/
def LeavesFilters (items : List Item) : Prop :=
  ∀ item ∈ items, declaredTypeName? item ≠ some "FilterApi" ∧
    declaredTypeName? item ≠ some "FunctionReference"

instance (items : List Item) : Decidable (LeavesFilters items) :=
  inferInstanceAs (Decidable (∀ item ∈ items, _ ∧ _))

/-- What the framework declares a reference to a function as. -/
def referenceDefinition : Definition where
  parameters := [⟨"Type", none⟩, ⟨"Visibility", some (.stringLiteral "public")⟩,
    ⟨"Args", some (.keyword .any)⟩, ⟨"ReturnType", some (.keyword .any)⟩,
    ⟨"ComponentPath", some (.union [.keyword .string, .keyword .undefined])⟩]
  body := .typeAlias (.object [.property "_type" false (.reference "Type" []),
    .property "_visibility" false (.reference "Visibility" []),
    .property "_args" false (.reference "Args" []),
    .property "_returnType" false (.reference "ReturnType" []),
    .property "_componentPath" false (.reference "ComponentPath" [])])

/-- Filters and references to functions are those of the framework. -/
structure ProvidesFilters (symbols : Symbols) : Prop where
  filter : symbols.type? "FilterApi" = none
  reference : symbols.type? "FunctionReference" = some referenceDefinition

theorem LeavesFilters.provides {items : List Item} (leaves : LeavesFilters items) :
    ProvidesFilters (.ofItems items) where
  filter := Symbols.type?_ofItems fun item member => (leaves item member).1
  reference := Symbols.type?_ofItems fun item member => (leaves item member).2

section Reference

variable {symbols : Symbols}

/-- What the parameters of a reference with a kind and a visibility stand for. -/
theorem bindParameters_reference (symbols : Symbols) (deeper : Deeper) (type visibility : TypeId) (graph : Graph) :
    ∃ path result arguments,
      (bindParameters symbols deeper [] referenceDefinition.parameters [type, visibility] graph).1 =
        [("ComponentPath", path), ("ReturnType", result), ("Args", arguments),
          ("Visibility", visibility), ("Type", type)] :=
  ⟨_, _, _, rfl⟩

/-- The structure of a reference: what its parameters stand for, under the names of its members. -/
theorem bodyKind_reference {deeper : Deeper} {id type visibility arguments result path : TypeId}
    {graph : Graph} (inside : id < graph.nodes.size) :
    (bodyKind symbols deeper [("ComponentPath", path), ("ReturnType", result), ("Args", arguments),
      ("Visibility", visibility), ("Type", type)] id referenceDefinition.body graph).1 =
      .object ⟨[⟨"_type", type, false⟩, ⟨"_visibility", visibility, false⟩, ⟨"_args", arguments, false⟩,
        ⟨"_returnType", result, false⟩, ⟨"_componentPath", path, false⟩], none⟩ := by
  have apart : graph.nodes.size ≠ id := Nat.ne_of_gt inside
  rw [referenceDefinition, bodyKind, bind_apply]
  simp only [resolve, resolveMembers, List.isEmpty_nil, if_true]
  rw [bind_apply]
  show Graph.aliasKind (allocate (.object _) _ graph).2 id graph.nodes.size = _
  rw [Graph.aliasKind, if_neg apart, kind_allocate, if_pos rfl, if_neg Kind.noConfusion]
  rfl

variable (provides : ProvidesFilters symbols)

include provides

/-- The structure of a remembered reference that is not being resolved. -/
theorem kind_reference {graph : Graph} (recorded : graph.Recorded symbols .none)
    {type literal id : TypeId} (finished : graph.kind id ≠ .pending)
    (found : graph.instances.lookup ⟨"FunctionReference", [type, literal]⟩ = some id) :
    ∃ arguments result path, graph.kind id = .object
      ⟨[⟨"_type", type, false⟩, ⟨"_visibility", literal, false⟩, ⟨"_args", arguments, false⟩,
        ⟨"_returnType", result, false⟩, ⟨"_componentPath", path, false⟩], none⟩ := by
  obtain ⟨run, _, has⟩ := (recorded.instances _ _ found).resolve_left finished
  have further := Deeper.keeps_ofLevels symbols .none run.levels
  have inside := ((run.bound_advances further).grows.hasKind run.unfinished).lt_size
  have same : run.definition = referenceDefinition :=
    Option.some.inj (run.declares.symm.trans provides.reference)
  have body : run.body.1 = (bodyKind symbols (.ofLevels symbols run.levels) run.bound.1 id
      referenceDefinition.body run.bound.2).1 := by
    rw [← same]
    rfl
  obtain ⟨path, result, arguments, scope⟩ :=
    bindParameters_reference symbols (.ofLevels symbols run.levels) type literal run.before
  have bound : run.bound.1 = [("ComponentPath", path), ("ReturnType", result), ("Args", arguments),
      ("Visibility", literal), ("Type", type)] := by
    rw [← scope, ← same]
    rfl
  rw [bound, bodyKind_reference inside] at body
  exact ⟨arguments, result, path, has.kind_eq.trans body⟩

/-- The visibility of a remembered reference is the one it was declared with. -/
theorem literalProperty?_reference {graph : Graph} (recorded : graph.Recorded symbols .none)
    {type literal id : TypeId} {visibility : String} (finished : graph.kind id ≠ .pending)
    (found : graph.instances.lookup ⟨"FunctionReference", [type, literal]⟩ = some id)
    (named : graph.literals.lookup visibility = some literal) :
    graph.literalProperty? id "_visibility" = some visibility := by
  obtain ⟨_, _, _, kind⟩ := kind_reference provides recorded finished found
  rw [Graph.literalProperty?, Graph.property?, properties_of_kind kind]
  show graph.stringValue? literal = some visibility
  rw [Graph.stringValue?, (recorded.literals visibility literal named).kind_eq]

/-- A reference with a visibility is remembered with its literal, unless it is nested too deeply. -/
theorem visibilityType_cases {levels : Nat} {scope : Scope} (visibility : String) {graph : Graph}
    (enough : symbols.room graph < levels) :
    let answer := resolve symbols (.ofLevels symbols levels) scope (visibilityType visibility) graph
    (∃ type literal,
        answer.2.instances.lookup ⟨"FunctionReference", [type, literal]⟩ = some answer.1 ∧
        answer.2.literals.lookup visibility = some literal) ∨
      (maximalDepth ≤ graph.depth ∧ answer.2.kind answer.1 = .opaqueType) := by
  obtain ⟨levels, rfl⟩ := Nat.exists_eq_add_of_lt (Nat.zero_lt_of_lt enough)
  rw [Nat.zero_add] at enough ⊢
  let typed := keywordType .any graph
  let named := stringLiteralType visibility typed.2
  have stepped : graph.GrowsTo named.2 := by
    have first : Keeps symbols .none (levels + 1) .pass (keywordType .any) := keeps_keywordType .any
    have second : Keeps symbols .none (levels + 1) .pass (stringLiteralType visibility) :=
      keeps_stringLiteralType visibility
    have grows := (first graph enough rfl).grows
    exact grows.trans (second typed.2 (grows.room_eq symbols ▸ enough) rfl).grows
  have room : symbols.room named.2 < levels + 1 := stepped.room_eq symbols ▸ enough
  have asked : resolve symbols (.ofLevels symbols (levels + 1)) scope (visibilityType visibility) graph =
      instantiateWith symbols (.ofLevels symbols levels) "FunctionReference" [typed.1, named.1]
        named.2 := by
    rw [visibilityType, resolve]
    simp only [List.isEmpty_cons, Bool.false_eq_true, if_false]
    rw [bind_apply, namedType, provides.reference]
    rfl
  rw [asked]
  rcases instantiateWith_remembers provides.reference room with ⟨found, grows⟩ | ⟨deep, opaqueKind⟩
  · have literal := lookup_stringLiteralType visibility typed.2
    exact .inl ⟨typed.1, named.1, found, grows.literals _ _ literal⟩
  · exact .inr ⟨stepped.depth ▸ deep, opaqueKind⟩

end Reference

/-! ### Roots that are asked for -/

/-- A root is asked for after other names of a run, and has the given type. -/
structure AskedFor (symbols : Symbols) (names before : List String) (root : String) (id : TypeId) :
    Prop where
  among : before ++ [root] <+: names
  answers : (exportType? symbols root (graphAfter symbols before .initial)).1 = some id

section AskedFor

variable {symbols : Symbols} {names before : List String} {root : String} {id : TypeId}

/-- The graph of a run continues those of its beginnings. -/
theorem graphAfter_continues (among : before <+: names) :
    (graphAfter symbols before .initial).Continues (graphAfter symbols names .initial) := by
  obtain ⟨after, rfl⟩ := among
  have idle := (graphAfter_recorded symbols before).1.resolving
  rw [graphAfter_append]
  exact (graphAfter_advances after _ (exportsClear_none symbols after _ idle)).grows.continues

theorem AskedFor.continues (asked : AskedFor symbols names before root id) :
    (graphAfter symbols (before ++ [root]) .initial).Continues (graphAfter symbols names .initial) :=
  graphAfter_continues asked.among

theorem AskedFor.exportType?_eq (asked : AskedFor symbols names before root id) :
    exportType? symbols root (graphAfter symbols before .initial) =
      (some id, graphAfter symbols (before ++ [root]) .initial) := by
  rw [graphAfter_append, ← asked.answers]
  rfl

theorem AskedFor.lt_size (asked : AskedFor symbols names before root id) :
    id < (graphAfter symbols (before ++ [root]) .initial).nodes.size := by
  rw [graphAfter_append]
  exact exportType?_lt_size symbols before root id asked.answers

end AskedFor

/-! ### Resolutions of filters -/

/-- The resolution of a root whose type is an interface filtered by a visibility. -/
structure FilterRun (symbols : Symbols) (root visibility : String) where
  /-- The value that the root stands for. -/
  localName : String
  /-- The resolution of its type. -/
  run : ValueRun symbols .none localName
  /-- The interface as written. -/
  target : TypeExpr
  exported : symbols.exportedValue? root = some localName
  written : run.type = filterType target visibility

section FilterRun

variable {symbols : Symbols} {root visibility : String} (run : FilterRun symbols root visibility)

/-- The interface, and the graph after it is resolved. -/
def FilterRun.api : TypeId × Graph :=
  resolve symbols (.ofLevels symbols run.run.levels) [] run.target run.run.before

/-- The reference that the filter is declared with, and the graph that the filter sees. -/
def FilterRun.filter : TypeId × Graph :=
  resolve symbols (.ofLevels symbols run.run.levels) [] (visibilityType visibility) run.api.2

/-- The filtered interface, and the graph after it is resolved. -/
def FilterRun.filtered : TypeId × Graph :=
  run.run.resolved

/-- The filter is not cut short: the reference it is declared with has its structure, and all that the
filter looks at is known. -/
structure FilterRun.IsUncut : Prop where
  followed : run.filter.2.isStructured run.filter.1 = true
  complete : clearFiltered run.api.1 run.filter.1 run.filter.2 = true

/-- The resolution stands behind the type of the root in a later graph. -/
structure FilterRun.Resolves (graph : Graph) (id : TypeId) : Prop where
  answers : run.filtered.1 = id
  continues : run.filtered.2.Continues graph

theorem FilterRun.api_advances : run.run.before.AdvancesTo symbols .none run.api.2 := by
  have keeps := keeps_resolve (Deeper.keeps_ofLevels symbols .none run.run.levels) false []
    run.target run.run.before run.run.enough
  rw [clearType_unwatched (Clear.passes_ofLevels symbols _)] at keeps
  exact keeps rfl

theorem FilterRun.enough : symbols.room run.api.2 < run.run.levels :=
  run.api_advances.grows.room_eq symbols ▸ run.run.enough

theorem FilterRun.filter_advances : run.api.2.AdvancesTo symbols .none run.filter.2 := by
  have keeps := keeps_resolve (Deeper.keeps_ofLevels symbols .none run.run.levels) false []
    (visibilityType visibility) run.api.2 run.enough
  rw [clearType_unwatched (Clear.passes_ofLevels symbols _)] at keeps
  exact keeps rfl

section Provided

variable (provides : ProvidesFilters symbols)

include provides

theorem FilterRun.filtered_eq :
    run.filtered = filteredType run.api.1 run.filter.1 run.filter.2 := by
  rw [FilterRun.filtered, ValueRun.resolved, run.written, filterType, resolve]
  simp only [List.isEmpty_cons, Bool.false_eq_true, if_false]
  rw [bind_apply, namedType, provides.filter]
  rfl

theorem FilterRun.filtered_grows : run.filter.2.GrowsTo run.filtered.2 := by
  have keeps : Keeps symbols .none (symbols.room run.filter.2 + 1) .pass
      (filteredType run.api.1 run.filter.1) := keeps_filteredType _ _
  rw [run.filtered_eq provides]
  exact (keeps run.filter.2 (Nat.lt_succ_self _) rfl).grows

/-- The interface is an object where the filter is applied. -/
theorem FilterRun.isStructured_api {graph : Graph} (uncut : run.IsUncut)
    (continues : run.filtered.2.Continues graph) (structured : graph.isStructured run.api.1 = true) :
    run.filter.2.isStructured run.api.1 = true := by
  have known := (Bool.and_eq_true_iff.mp uncut.complete).1
  rw [← ((run.filtered_grows provides).continues.trans continues).isStructured_eq known]
  exact structured

/-- **A filter that is not cut short sees the visibility that it is declared with.** -/
theorem FilterRun.literal_eq {graph : Graph} (uncut : run.IsUncut)
    (continues : run.filtered.2.Continues graph) (recorded : graph.Recorded symbols .none)
    (finished : ∀ id, graph.kind id ≠ .pending)
    (structured : graph.isStructured run.api.1 = true) :
    run.filter.2.literalProperty? run.filter.1 "_visibility" = some visibility := by
  have later := (run.filtered_grows provides).continues.trans continues
  obtain ⟨_, checked⟩ := Bool.and_eq_true_iff.mp uncut.complete
  rw [run.isStructured_api provides uncut continues structured, Bool.not_true, Bool.false_or] at checked
  obtain ⟨known, _⟩ := Bool.and_eq_true_iff.mp checked
  rw [← later.literalProperty?_eq known]
  rcases visibilityType_cases provides visibility run.enough with ⟨type, literal, found, named⟩ | cut
  · exact literalProperty?_reference provides recorded (finished _) (later.instances _ _ found)
      (later.literals _ _ named)
  · have followed := uncut.followed
    rw [Graph.isStructured, show run.filter.2.kind run.filter.1 = _ from cut.2] at followed
    cases followed

end Provided

end FilterRun

/-! ### Filters between exports -/

section Settled

variable {graph : Graph} {wanted : Option String}

/-- What a filter leaves of a settled graph is settled. -/
theorem filterWithin_settled (settled : graph.Settled) (wanted : Option String) (levels : Nat)
    {id : TypeId} (inside : id < graph.nodes.size) :
    (filterWithin wanted levels id graph).2.Settled :=
  settled.grow (filterWithin_grows wanted levels id graph)
    (grounds_filterWithin wanted levels id graph settled.toGrounded (.single inside)).1

/-- A filter is not cut short among properties where it is not in any settled graph. -/
theorem clearKept_settled {levels : Nat}
    (clear : ∀ (id : TypeId) (seen : Graph), seen.Settled → id < seen.nodes.size →
      clearFilterWithin wanted levels id seen = true) {properties : List Property}
    (settled : graph.Settled) (inside : ∀ property ∈ properties, property.type < graph.nodes.size) :
    clearKept (filterWithin wanted levels) (clearFilterWithin wanted levels) properties graph = true := by
  induction properties generalizing graph with
  | nil => rfl
  | cons property rest ih =>
    obtain ⟨own, others⟩ := List.forall_mem_cons.mp inside
    have grows := (filterWithin_grows wanted levels property.type graph).size_le
    refine Bool.and_eq_true_iff.mpr ⟨clear property.type graph settled own, ?_⟩
    exact ih (filterWithin_settled settled wanted levels own) fun other member =>
      Nat.lt_of_lt_of_le (others other member) grows

/-- In a settled graph a filter is not cut short. -/
theorem clearFilterWithin_settled (levels : Nat) {id : TypeId} (settled : graph.Settled)
    (inside : id < graph.nodes.size) : clearFilterWithin wanted levels id graph = true := by
  induction levels generalizing id graph with
  | zero => rfl
  | succ levels ih =>
    refine Bool.and_eq_true_iff.mpr ⟨settled.knowsProperties inside, ?_⟩
    split
    · rw [settled.knowsProperty inside, Bool.or_true]
    · have kept := clearKept_settled (fun _ _ settled inside => ih settled inside) settled
        (settled.property_lt id)
      rw [kept, Bool.or_true]

theorem clearFiltered_settled {api filter : TypeId} (settled : graph.Settled)
    (api_lt : api < graph.nodes.size) (filter_lt : filter < graph.nodes.size) :
    clearFiltered api filter graph = true := by
  refine Bool.and_eq_true_iff.mpr ⟨settled.isKnown api_lt, ?_⟩
  rw [settled.knowsProperty filter_lt, clearFilterWithin_settled _ settled api_lt, Bool.and_self,
    Bool.or_true]

end Settled

section First

variable {symbols : Symbols} {root localName visibility : String} {target : TypeExpr}
  (exported : symbols.exportedValue? root = some localName)
  (declares : symbols.value? localName = some (filterType target visibility)) {graph : Graph}

/-- The resolution of a root that is asked for first in a graph between exports. -/
def FilterRun.first (idle : graph.resolving = []) : FilterRun symbols root visibility where
  localName := localName
  target := target
  exported := exported
  written := rfl
  run := {
    type := filterType target visibility
    levels := maximalDepth + symbols.values.length + 1
    before := { graph with resolving := localName :: graph.resolving }
    declares := declares
    enough := by
      have taken := Symbols.room_resolving declares (idle ▸ List.not_mem_nil : localName ∉ graph.resolving)
      exact Nat.lt_of_lt_of_le taken (Nat.le_of_lt_succ (symbols.room_lt_levels graph))
    clear := congrFun (clearType_unwatched (Clear.passes_ofLevels symbols _) _ _) _ }

/-- A root that is asked for first has the type of this resolution. -/
theorem exportType?_first (idle : graph.resolving = []) (free : graph.values.lookup localName = none) :
    let run := FilterRun.first exported declares idle
    exportType? symbols root graph =
      (some run.filtered.1, run.filtered.2.leaveValue localName run.filtered.1) := by
  intro run
  have outside : localName ∉ graph.resolving := idle ▸ List.not_mem_nil
  have asked : valueType symbols localName graph =
      (run.filtered.1, run.filtered.2.leaveValue localName run.filtered.1) := by
    show valueTypeWith symbols (.ofLevels symbols (maximalDepth + symbols.values.length + 1))
      localName graph = _
    rw [valueTypeWith_declared free declares, if_neg outside]
    rfl
  rw [exportType?_of_some exported, asked]

/-- **The filter of a root that is asked for first between two exports is not cut short.** -/
theorem FilterRun.isUncut_first (provides : ProvidesFilters symbols) (formed : graph.WellFormed)
    (recorded : graph.Recorded symbols .none) :
    (FilterRun.first exported declares formed.resolving).IsUncut := by
  let run := FilterRun.first exported declares formed.resolving
  have entered : run.run.before.Settled :=
    { formed.settled.toGrounded.remember rfl fun _ member => .inl member with
      finished := formed.settled.finished }
  have recording : run.run.before.Recorded symbols .none :=
    recorded.later { Graph.Continues.refl graph with } (fun _ _ found => .inl found)
      (fun _ _ found => .inl found) (fun _ _ found => .inl ⟨found, id⟩) (fun _ _ found => .inl found)
  have grounds := Deeper.grounds_ofLevels symbols run.run.levels
  obtain ⟨apiGrounded, _, apiInside⟩ := grounds_resolve grounds [] run.target run.run.before
    entered.toGrounded fun _ member => absurd member List.not_mem_nil
  have apiSettled : run.api.2.Settled := entered.grow run.api_advances.grows apiGrounded
  obtain ⟨grounded, sizes, inside⟩ := grounds_resolve grounds [] (visibilityType visibility)
    run.api.2 apiGrounded fun _ member => absurd member List.not_mem_nil
  have settled : run.filter.2.Settled := apiSettled.grow run.filter_advances.grows grounded
  refine ⟨?_, clearFiltered_settled settled
    (Nat.lt_of_lt_of_le (apiInside _ List.mem_cons_self) sizes) (inside _ List.mem_cons_self)⟩
  rcases visibilityType_cases provides visibility run.enough with ⟨type, literal, found, _⟩ | deep
  · have all := run.filter_advances.recorded (run.api_advances.recorded recording)
    obtain ⟨_, _, _, kind⟩ := kind_reference provides all (settled.finished _) found
    rw [Graph.isStructured, show run.filter.2.kind run.filter.1 = _ from kind]
  · have shallow : run.api.2.depth = 0 := run.api_advances.grows.depth.trans formed.depth
    exact absurd (shallow ▸ deep.1) (by decide)

/-- It stands behind the type of the root in all later graphs of the run. -/
theorem FilterRun.resolves_first {names before : List String} {id : TypeId}
    (asked : AskedFor symbols names before root id)
    (free : (graphAfter symbols before .initial).values.lookup localName = none) :
    (FilterRun.first exported declares (graphAfter_wellFormed symbols before).resolving).Resolves
      (graphAfter symbols names .initial) id := by
  let run := FilterRun.first exported declares (graphAfter_wellFormed symbols before).resolving
  have still : run.filtered.2.values.lookup localName = none :=
    run.run.free (Deeper.keeps_ofLevels symbols .none run.run.levels) free rfl
  obtain ⟨same, after⟩ := Prod.mk.inj (asked.exportType?_eq.symm.trans
    (exportType?_first exported declares (graphAfter_wellFormed symbols before).resolving free))
  exact ⟨(Option.some.inj same).symm, (leaveValue_continues _ still).trans (after ▸ asked.continues)⟩

end First

/-- **Behind every root that filters an interface stands a resolution**, and it is not cut short where
the root is asked for first between exports. -/
theorem exists_filterRun {symbols : Symbols} (provides : ProvidesFilters symbols)
    {names before : List String} {root localName visibility : String} {target : TypeExpr} {id : TypeId}
    (asked : AskedFor symbols names before root id)
    (exported : symbols.exportedValue? root = some localName)
    (declares : symbols.value? localName = some (filterType target visibility)) :
    ∃ run : FilterRun symbols root visibility, run.target = target ∧
      run.Resolves (graphAfter symbols names .initial) id ∧
      ((graphAfter symbols before .initial).values.lookup localName = none → run.IsUncut) := by
  have recorded := (graphAfter_recorded symbols before).2
  cases held : (graphAfter symbols before .initial).values.lookup localName with
  | none =>
    exact ⟨.first exported declares _, rfl, FilterRun.resolves_first exported declares asked held,
      fun _ => FilterRun.isUncut_first exported declares provides
        (graphAfter_wellFormed symbols before) recorded⟩
  | some remembered =>
    obtain ⟨run, continues, answers⟩ := recorded.values localName remembered held
    have written : run.type = filterType target visibility :=
      Option.some.inj (run.declares.symm.trans declares)
    have answered : exportType? symbols root (graphAfter symbols before .initial) =
        (some remembered, graphAfter symbols before .initial) := by
      have asked : valueType symbols localName (graphAfter symbols before .initial) = _ :=
        valueTypeWith_of_some held
      rw [exportType?_of_some exported, asked]
    have same : remembered = id :=
      Option.some.inj ((congrArg Prod.fst answered).symm.trans asked.answers)
    have reached : (graphAfter symbols before .initial).Continues (graphAfter symbols names .initial) :=
      graphAfter_continues ((List.prefix_append before [root]).trans asked.among)
    exact ⟨⟨localName, run, target, exported, written⟩, rfl,
      ⟨answers.trans same, continues.trans reached⟩, fun none => by cases none⟩

end SwiftBindings.Api
