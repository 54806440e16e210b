/-
**Runs of resolution.**

A declared type gets its node first, and once its body is resolved the run of the body stands behind
the node (`keeps_instantiateWith`). A value is remembered once its type is resolved
(`keeps_valueTypeWith`). By induction on levels all of resolution keeps records
(`Deeper.keeps_ofLevels`), and so does every run of exports: `graphAfter_advances`.
-/

import SwiftBindings.Proofs.TypeGraph.Resolution

namespace SwiftBindings.TypeGraph

open Declared

variable {symbols : Symbols} {watch : Watch} {levels : Nat}

/-! ### Declared types -/

/-- A step of a declared type, from the graph with its node to the one with its structure. -/
structure InstanceStep (graph after : Graph) (declared : Instance) : Prop where
  free : graph.instances.lookup declared = none
  grows : (enterInstance declared graph).2.GrowsTo after

section InstanceStep

variable {graph after : Graph} {declared : Instance} (step : InstanceStep graph after declared)
  {kind : Kind}

include step

theorem InstanceStep.unfinished : after.HasKind graph.nodes.size .pending :=
  step.grows.hasKind (enterInstance_hasKind declared)

/-- A place remembered within the step is an earlier one, that of the type, or a later one. -/
theorem InstanceStep.instance_cases {other : Instance} {id : TypeId}
    (found : after.instances.lookup other = some id) :
    graph.instances.lookup other = some id ∨ (other = declared ∧ id = graph.nodes.size) ∨
      graph.nodes.size < id := by
  rcases step.grows.fresh other id found with held | new
  · rcases lookup_enterInstance held with here | before
    · exact .inr (.inl here)
    · exact .inl before
  · rw [enterInstance_eq] at new
    have more : (graph.nodes.push ⟨.pending, _⟩).size ≤ id := new
    rw [Array.size_push] at more
    exact .inr (.inr more)

theorem InstanceStep.leave_grows (known : kind ≠ .pending) :
    graph.GrowsTo (leaveInstance graph.nodes.size kind after).2 where
  nodes id node found := by
    have inside := (Array.getElem?_eq_some_iff.mp found).1
    rw [leaveInstance_node_of_ne (Nat.ne_of_lt inside)]
    exact step.grows.nodes id node (enterInstance_node declared found)
  pending id pending := by
    by_cases same : id = graph.nodes.size
    · rw [same, (leaveInstance_hasKind step.unfinished).kind_eq] at pending
      exact absurd pending known
    · rw [leaveInstance_kind_of_ne same] at pending
      have before := step.grows.pending id pending
      rwa [enterInstance_kind, if_neg same] at before
  keywords := step.grows.keywords
  literals := step.grows.literals
  instances := (Retains.cons _ step.free).trans step.grows.instances
  values := step.grows.values
  guarded name inside free := step.grows.guarded name inside free
  fresh other id found := by
    rcases step.instance_cases found with held | ⟨_, rfl⟩ | new
    · exact .inl held
    · exact .inr (Nat.le_refl _)
    · exact .inr (Nat.le_of_lt new)
  depth := by
    show after.depth - 1 = graph.depth
    rw [step.grows.depth]
    rfl
  resolving := step.grows.resolving

/-- A graph keeps its records when a declared type is left, if a run stands behind its structure. -/
theorem InstanceStep.leave_recorded (recorded : graph.Recorded symbols watch)
    (within : after.Recorded symbols watch)
    (run : InstanceRun symbols watch declared graph.nodes.size) (body : run.body = (kind, after)) :
    (leaveInstance graph.nodes.size kind after).2.Recorded symbols watch := by
  have continues : after.Continues (leaveInstance graph.nodes.size kind after).2 :=
    leaveInstance_continues step.unfinished
  refine within.later continues (fun _ _ found => .inl found) (fun _ _ found => .inl found)
    (fun other id found => ?_) (fun _ _ found => .inl found)
  by_cases same : id = graph.nodes.size
  · subst same
    rcases step.instance_cases found with held | ⟨rfl, _⟩ | new
    · exact absurd (recorded.instance_lt held) (Nat.lt_irrefl _)
    · refine .inr (.inr ⟨run, ?_, ?_⟩)
      · rw [body]
        exact continues
      · rw [body]
        exact leaveInstance_hasKind step.unfinished
    · exact absurd new (Nat.lt_irrefl _)
  · refine .inl ⟨found, fun pending => ?_⟩
    rw [leaveInstance_kind_of_ne same]
    exact pending

end InstanceStep

/-- What a declared type that is asked for gives: what is remembered; an unresolved type, where
nothing declares it; an opaque one, where it is too deep and nobody watches; or a new node, with the
run of its body behind its structure. -/
inductive InstanceCases (symbols : Symbols) (watch : Watch) (levels : Nat) (own : Bool)
    (declared : Instance) (graph : Graph) : TypeId × Graph → Prop where
  | remembered {id : TypeId} (found : graph.instances.lookup declared = some id) :
    InstanceCases symbols watch levels own declared graph (id, graph)
  | undeclared (unknown : symbols.type? declared.name = none) (text : String) :
    InstanceCases symbols watch levels own declared graph (unresolvedType text graph)
  | deep (unwatched : own = false) (text : String) :
    InstanceCases symbols watch levels own declared graph (opaqueNode text graph)
  | resolved (free : graph.instances.lookup declared = none)
    (run : InstanceRun symbols watch declared graph.nodes.size) (level : run.levels = levels)
    (before : run.before = (enterInstance declared graph).2) :
    InstanceCases symbols watch levels own declared graph
      (graph.nodes.size, (leaveInstance graph.nodes.size run.body.1 run.body.2).2)

theorem instantiateWith_cases {own : Bool} {name : String} {arguments : List TypeId} {graph : Graph}
    (enough : symbols.room graph < levels + 1)
    (passed : clearInstantiate symbols watch (.ofLevels symbols levels) (.ofLevels symbols watch levels)
      own name arguments graph = true) :
    InstanceCases symbols watch levels own ⟨name, arguments⟩ graph
      (instantiateWith symbols (.ofLevels symbols levels) name arguments graph) := by
  cases free : graph.instances.lookup ⟨name, arguments⟩ with
  | some id =>
    rw [instantiateWith_of_some free]
    exact .remembered free
  | none =>
    cases declares : symbols.type? name with
    | none =>
      rw [instantiateWith_undeclared free declares]
      exact .undeclared declares _
    | some definition =>
      rw [instantiateWith_declared free declares]
      rw [clearInstantiate, free] at passed
      dsimp only at passed
      rw [declares] at passed
      dsimp only at passed
      split at passed
      · rename_i deep
        rw [if_pos deep]
        exact .deep ((Bool.not_eq_true' own).mp passed) _
      · rename_i shallow
        rw [if_neg shallow]
        have less := symbols.room_enter ⟨name, arguments⟩ (Nat.lt_of_not_le shallow)
        let run : InstanceRun symbols watch ⟨name, arguments⟩ graph.nodes.size :=
          { definition := definition
            levels := levels
            before := (enterInstance ⟨name, arguments⟩ graph).2
            declares := declares
            unfinished := enterInstance_hasKind _
            enough := by omega
            clear := passed }
        exact .resolved free run rfl rfl

section InstanceRun

variable {declared : Instance} {id : TypeId} (run : InstanceRun symbols watch declared id)
  (further : (Deeper.ofLevels symbols run.levels).Keeps symbols watch run.levels
    (.ofLevels symbols watch run.levels))

include further

/-- Binding the parameters of a declared type keeps records. -/
theorem InstanceRun.bound_advances : run.before.AdvancesTo symbols watch run.bound.2 :=
  keeps_bindParameters further _ [] run.definition.parameters declared.arguments run.before
    run.enough (Bool.and_eq_true_iff.mp run.clear).1

theorem InstanceRun.bound_enough : symbols.room run.bound.2 < run.levels := by
  rw [(run.bound_advances further).grows.room_eq]
  exact run.enough

omit further in
theorem InstanceRun.bound_clear : clearBody symbols (.ofLevels symbols run.levels)
    (.ofLevels symbols watch run.levels) (watch.types declared.name) run.bound.1 run.definition.body
    run.bound.2 = true :=
  (Bool.and_eq_true_iff.mp run.clear).2

/-- Resolving the body of a declared type keeps records. -/
theorem InstanceRun.body_advances : run.bound.2.AdvancesTo symbols watch run.body.2 :=
  keeps_bodyKind further _ run.bound.1 id run.definition.body run.bound.2 (run.bound_enough further)
    run.bound_clear

end InstanceRun

/-- **Resolving a declared type keeps records**: behind its node stands the run of its body. -/
theorem keeps_instantiateWith
    (further : (Deeper.ofLevels symbols levels).Keeps symbols watch levels
      (.ofLevels symbols watch levels)) (own : Bool) (name : String) (arguments : List TypeId) :
    Keeps symbols watch (levels + 1)
      (clearInstantiate symbols watch (.ofLevels symbols levels) (.ofLevels symbols watch levels) own
        name arguments)
      (instantiateWith symbols (.ofLevels symbols levels) name arguments) := by
  intro graph enough passed
  have asked := instantiateWith_cases enough passed
  generalize instantiateWith symbols _ name arguments graph = result at asked ⊢
  cases asked with
  | remembered _ => exact .refl graph
  | undeclared _ text => exact graph.advancesTo_allocate Kind.noConfusion text
  | deep _ text => exact graph.advancesTo_allocate Kind.noConfusion text
  | resolved free run level before =>
    subst level
    have within := (run.bound_advances further).trans (run.body_advances further)
    rw [before] at within
    have step : InstanceStep graph run.body.2 ⟨name, arguments⟩ := ⟨free, within.grows⟩
    refine ⟨step.leave_grows (bodyKind_ne_pending _ _ _ _ _), fun recorded => ?_⟩
    exact step.leave_recorded recorded (within.recorded (recorded.enter _ free)) run rfl

/-! ### Values -/

/-- The graph of a value's type after it was resolved: the value is remembered, and no longer being
resolved. -/
def Graph.leaveValue (graph : Graph) (name : String) (id : TypeId) : Graph :=
  { graph with
    resolving := graph.resolving.erase name
    values := (name, id) :: graph.values }

/-- What a value that is asked for gives: what is remembered; an unresolved type, where nothing
declares it; an opaque one, where it is being resolved and nobody watches; or the type that its run
gives. -/
inductive ValueCases (symbols : Symbols) (watch : Watch) (levels : Nat) (own : Bool) (name : String)
    (graph : Graph) : TypeId × Graph → Prop where
  | remembered {id : TypeId} (found : graph.values.lookup name = some id) :
    ValueCases symbols watch levels own name graph (id, graph)
  | undeclared (unknown : symbols.value? name = none) (text : String) :
    ValueCases symbols watch levels own name graph (unresolvedType text graph)
  | entered (unwatched : own = false) (text : String) :
    ValueCases symbols watch levels own name graph (opaqueNode text graph)
  | resolved (free : graph.values.lookup name = none) (outside : name ∉ graph.resolving)
    (run : ValueRun symbols watch name) (level : run.levels = levels)
    (before : run.before = { graph with resolving := name :: graph.resolving }) :
    ValueCases symbols watch levels own name graph
      (run.resolved.1, run.resolved.2.leaveValue name run.resolved.1)

theorem valueTypeWith_cases {own : Bool} {name : String} {graph : Graph}
    (enough : symbols.room graph < levels + 1)
    (passed : clearValue symbols watch (.ofLevels symbols levels) (.ofLevels symbols watch levels) own
      name graph = true) :
    ValueCases symbols watch levels own name graph
      (valueTypeWith symbols (.ofLevels symbols levels) name graph) := by
  cases free : graph.values.lookup name with
  | some id =>
    rw [valueTypeWith_of_some free]
    exact .remembered free
  | none =>
    cases declares : symbols.value? name with
    | none =>
      rw [valueTypeWith_undeclared free declares]
      exact .undeclared declares _
    | some type =>
      rw [valueTypeWith_declared free declares]
      rw [clearValue, free] at passed
      dsimp only at passed
      rw [declares] at passed
      dsimp only at passed
      split at passed
      · rename_i entered
        rw [if_pos entered]
        exact .entered ((Bool.not_eq_true' own).mp passed) _
      · rename_i outside
        rw [if_neg outside]
        have less := Symbols.room_resolving declares outside
        let run : ValueRun symbols watch name :=
          { type := type
            levels := levels
            before := { graph with resolving := name :: graph.resolving }
            declares := declares
            enough := by omega
            clear := passed }
        exact .resolved free outside run rfl rfl

theorem leaveValue_continues {graph : Graph} {name : String} (id : TypeId)
    (free : graph.values.lookup name = none) : graph.Continues (graph.leaveValue name id) :=
  { Graph.Continues.refl graph with values := .cons id free }

section ValueRun

variable {name : String} (run : ValueRun symbols watch name)
  (further : (Deeper.ofLevels symbols run.levels).Keeps symbols watch run.levels
    (.ofLevels symbols watch run.levels))

include further

/-- Resolving the type of a value keeps records. -/
theorem ValueRun.advances : run.before.AdvancesTo symbols watch run.resolved.2 :=
  keeps_resolve further _ [] run.type run.before run.enough run.clear

/-- A value is not remembered before its resolution ends. -/
theorem ValueRun.free {graph : Graph} (free : graph.values.lookup name = none)
    (before : run.before = { graph with resolving := name :: graph.resolving }) :
    run.resolved.2.values.lookup name = none := by
  refine (run.advances further).grows.guarded name ?_ ?_
  · rw [before]
    exact List.mem_cons_self
  · rw [before]
    exact free

end ValueRun

/-- **Resolving a value keeps records**: behind what is remembered of it stands the run of its
type. -/
theorem keeps_valueTypeWith
    (further : (Deeper.ofLevels symbols levels).Keeps symbols watch levels
      (.ofLevels symbols watch levels)) (own : Bool) (name : String) :
    Keeps symbols watch (levels + 1)
      (clearValue symbols watch (.ofLevels symbols levels) (.ofLevels symbols watch levels) own name)
      (valueTypeWith symbols (.ofLevels symbols levels) name) := by
  intro graph enough passed
  have asked := valueTypeWith_cases enough passed
  generalize valueTypeWith symbols _ name graph = result at asked ⊢
  cases asked with
  | remembered _ => exact .refl graph
  | undeclared _ text => exact graph.advancesTo_allocate Kind.noConfusion text
  | entered _ text => exact graph.advancesTo_allocate Kind.noConfusion text
  | resolved free outside run level before =>
    subst level
    have still := run.free further free before
    have continues := leaveValue_continues run.resolved.1 still
    have within := run.advances further
    rw [before] at within
    refine ⟨?_, fun recorded => ?_⟩
    · exact
      { nodes := within.grows.nodes
        pending := within.grows.pending
        keywords := within.grows.keywords
        literals := within.grows.literals
        instances := within.grows.instances
        values := within.grows.values.trans (.cons _ still)
        guarded := fun other inside missing => by
          have different : other ≠ name := fun same => outside (same ▸ inside)
          rw [Graph.leaveValue, lookup_cons_of_ne _ different]
          exact within.grows.guarded other (List.mem_cons_of_mem _ inside) missing
        fresh := within.grows.fresh
        depth := within.grows.depth
        resolving := by
          show run.resolved.2.resolving.erase name = graph.resolving
          rw [show run.resolved.2.resolving = name :: graph.resolving from within.grows.resolving,
            List.erase_cons_head] }
    · have inside : Graph.Recorded symbols watch
          { graph with resolving := name :: graph.resolving } :=
        recorded.later { Graph.Continues.refl graph with } (fun _ _ found => .inl found)
          (fun _ _ found => .inl found) (fun _ _ found => .inl ⟨found, id⟩)
          (fun _ _ found => .inl found)
      refine (within.recorded inside).later continues (fun _ _ found => .inl found)
        (fun _ _ found => .inl found) (fun _ _ found => .inl ⟨found, id⟩) fun other id found => ?_
      rcases lookup_cons_cases found with ⟨rfl, rfl⟩ | before
      · exact .inr ⟨run, continues, rfl⟩
      · exact .inl before

/-! ### All levels -/

/-- **Resolution at every level keeps records.** Without levels there is no room for a step. -/
theorem Deeper.keeps_ofLevels (symbols : Symbols) (watch : Watch) (levels : Nat) :
    (Deeper.ofLevels symbols levels).Keeps symbols watch levels (.ofLevels symbols watch levels) := by
  induction levels with
  | zero => exact ⟨fun _ _ _ _ enough => absurd enough (Nat.not_lt_zero _),
      fun _ _ _ enough => absurd enough (Nat.not_lt_zero _)⟩
  | succ levels ih => exact ⟨keeps_instantiateWith ih, keeps_valueTypeWith ih⟩

/-! ### Exports -/

/-- The type of an exported value. -/
theorem exportType?_of_some {name localName : String}
    (exported : symbols.exportedValue? name = some localName) (graph : Graph) :
    exportType? symbols name graph =
      (some (valueType symbols localName graph).1, (valueType symbols localName graph).2) := by
  rw [exportType?, exported]
  rfl

theorem exportType?_of_none {name : String} (hidden : symbols.exportedValue? name = none)
    (graph : Graph) : exportType? symbols name graph = (none, graph) := by
  rw [exportType?, hidden]
  rfl

/-- An export that is not cut short grows the graph and keeps its records. -/
theorem exportType?_advances (name : String) (graph : Graph)
    (passed : clearExport symbols watch name graph = true) :
    graph.AdvancesTo symbols watch (exportType? symbols name graph).2 := by
  rw [clearExport] at passed
  cases exported : symbols.exportedValue? name with
  | none =>
    rw [exportType?_of_none exported]
    exact .refl graph
  | some localName =>
    rw [exportType?_of_some exported]
    rw [exported] at passed
    exact (Deeper.keeps_ofLevels symbols watch symbols.levels).valueType true localName graph
      (symbols.room_lt_levels graph) passed

/-- **Exports that are not cut short grow the graph and keep its records.** -/
theorem graphAfter_advances (names : List String) (graph : Graph)
    (passed : exportsClear symbols watch names graph = true) :
    graph.AdvancesTo symbols watch (graphAfter symbols names graph) := by
  induction names generalizing graph with
  | nil => exact .refl graph
  | cons name rest ih =>
    obtain ⟨first, others⟩ := Bool.and_eq_true_iff.mp passed
    exact (exportType?_advances name graph first).trans (ih _ others)

/-- Where nothing is watched, exports outside of all resolutions are not cut short. -/
theorem exportsClear_none (symbols : Symbols) (names : List String) (graph : Graph)
    (idle : graph.resolving = []) : exportsClear symbols .none names graph = true := by
  induction names generalizing graph with
  | nil => rfl
  | cons name rest ih =>
    have first : clearExport symbols .none name graph = true := by
      rw [clearExport]
      cases symbols.exportedValue? name with
      | none => rfl
      | some localName =>
        show clearValue symbols .none _ _ true localName graph = true
        rw [clearValue]
        split
        · rfl
        · split
          · rfl
          · rw [idle, if_neg List.not_mem_nil]
            exact congrFun (clearType_unwatched (Clear.passes_ofLevels symbols _) _ _) _
    have grows := (exportType?_advances name graph first).grows
    exact Bool.and_eq_true_iff.mpr ⟨first, ih _ (grows.resolving.trans idle)⟩

/-- **Behind all that is remembered after exports stands a resolution.** -/
theorem graphAfter_recorded (symbols : Symbols) (names : List String) :
    Graph.initial.GrowsTo (graphAfter symbols names .initial) ∧
      (graphAfter symbols names .initial).Recorded symbols .none := by
  have advances := graphAfter_advances names .initial (exportsClear_none symbols names _ rfl)
  exact ⟨advances.grows, advances.recorded (Graph.recorded_initial symbols .none)⟩

/-- After exports no type is unfinished. -/
theorem Graph.GrowsTo.finished {graph : Graph} (grows : Graph.initial.GrowsTo graph) (id : TypeId) :
    graph.kind id ≠ .pending := by
  intro pending
  have before := grows.pending id pending
  obtain ⟨text, found⟩ := Graph.hasKind_pending before
  cases id with
  | zero => cases found
  | succ id => cases found

end SwiftBindings.TypeGraph
