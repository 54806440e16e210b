/-
**What a graph remembers was resolved.**

A graph remembers the nodes of keywords, literals, declared types and values. `Graph.Recorded` says
that each of them comes from a resolution in the same run: behind a declared type that is finished
stands the run of its parameters and its body (`InstanceRun`), behind a value the run of its type
(`ValueRun`), and the graph continues the last graph of that run.

Every step of resolution that is not cut short keeps this and grows the graph (`Keeps`); so after any
exports the graph has a run for all that it remembers (`graphAfter_recorded`).
-/

import SwiftBindings.Proofs.TypeGraph.Clear

namespace SwiftBindings.TypeGraph

open Declared

/-! ### Resolutions behind what is remembered -/

/-- One resolution of a declared type, from its parameters on. -/
structure InstanceRun (symbols : Symbols) (watch : Watch) (declared : Instance) (id : TypeId) where
  /-- The declaration. -/
  definition : Definition
  /-- The number of levels further in. -/
  levels : Nat
  /-- The graph with the node of the type, before its parameters are bound. -/
  before : Graph
  declares : symbols.type? declared.name = some definition
  unfinished : before.HasKind id .pending
  enough : symbols.room before < levels
  clear : clearDefinition symbols (.ofLevels symbols levels) (.ofLevels symbols watch levels)
    (watch.types declared.name) definition declared.arguments before = true

/-- One resolution of a value's type. -/
structure ValueRun (symbols : Symbols) (watch : Watch) (name : String) where
  /-- The type as written. -/
  type : TypeExpr
  /-- The number of levels further in. -/
  levels : Nat
  /-- The graph in which the value is being resolved. -/
  before : Graph
  declares : symbols.value? name = some type
  enough : symbols.room before < levels
  clear : clearType symbols (.ofLevels symbols levels) (.ofLevels symbols watch levels)
    (watch.values name) [] type before = true

section Runs

variable {symbols : Symbols} {watch : Watch}

/-- The scope of a declared type, and the graph after its parameters are bound. -/
def InstanceRun.bound {declared : Instance} {id : TypeId}
    (run : InstanceRun symbols watch declared id) : Scope × Graph :=
  bindParameters symbols (.ofLevels symbols run.levels) [] run.definition.parameters
    declared.arguments run.before

/-- The structure of a declared type, and the graph after its body is resolved. -/
def InstanceRun.body {declared : Instance} {id : TypeId}
    (run : InstanceRun symbols watch declared id) : Kind × Graph :=
  bodyKind symbols (.ofLevels symbols run.levels) run.bound.1 id run.definition.body run.bound.2

/-- The type of a value, and the graph after it is resolved. -/
def ValueRun.resolved {name : String} (run : ValueRun symbols watch name) : TypeId × Graph :=
  resolve symbols (.ofLevels symbols run.levels) [] run.type run.before

end Runs

section Recorded

variable (symbols : Symbols) (watch : Watch)

/-- A declared type is being resolved, or has been in the run of the graph. -/
def Graph.RecordsInstance (graph : Graph) (declared : Instance) (id : TypeId) : Prop :=
  graph.kind id = .pending ∨ ∃ run : InstanceRun symbols watch declared id,
    run.body.2.Continues graph ∧ graph.HasKind id run.body.1

/-- A value has been resolved in the run of the graph. -/
def Graph.RecordsValue (graph : Graph) (name : String) (id : TypeId) : Prop :=
  ∃ run : ValueRun symbols watch name, run.resolved.2.Continues graph ∧ run.resolved.1 = id

/-- Behind all that a graph remembers stands a resolution. -/
structure Graph.Recorded (graph : Graph) : Prop where
  keywords : ∀ keyword id, graph.keywords.lookup keyword = some id →
    graph.HasKind id (.primitive keyword)
  literals : ∀ value id, graph.literals.lookup value = some id →
    graph.HasKind id (.stringLiteral value)
  instances : ∀ declared id, graph.instances.lookup declared = some id →
    graph.RecordsInstance symbols watch declared id
  values : ∀ name id, graph.values.lookup name = some id → graph.RecordsValue symbols watch name id

theorem Graph.recorded_initial : Graph.initial.Recorded symbols watch where
  keywords _ _ found := by cases found
  literals _ _ found := by cases found
  instances _ _ found := by cases found
  values _ _ found := by cases found

variable {symbols watch}

theorem Graph.RecordsInstance.later {earlier later : Graph} {declared : Instance} {id : TypeId}
    (records : earlier.RecordsInstance symbols watch declared id)
    (continues : earlier.Continues later)
    (unfinished : earlier.kind id = .pending → later.kind id = .pending) :
    later.RecordsInstance symbols watch declared id := by
  rcases records with pending | ⟨run, after, has⟩
  · exact .inl (unfinished pending)
  · by_cases pending : run.body.1 = .pending
    · rw [pending] at has
      exact .inl (unfinished has.kind_eq)
    · exact .inr ⟨run, after.trans continues, continues.hasKind has pending⟩

theorem Graph.RecordsValue.later {earlier later : Graph} {name : String} {id : TypeId}
    (records : earlier.RecordsValue symbols watch name id) (continues : earlier.Continues later) :
    later.RecordsValue symbols watch name id := by
  obtain ⟨run, after, same⟩ := records
  exact ⟨run, after.trans continues, same⟩

/-- The places that a graph remembers have nodes. -/
theorem Graph.Recorded.instance_lt {graph : Graph} (recorded : graph.Recorded symbols watch)
    {declared : Instance} {id : TypeId} (found : graph.instances.lookup declared = some id) :
    id < graph.nodes.size := by
  rcases recorded.instances declared id found with pending | ⟨run, _, has⟩
  · exact (Graph.hasKind_pending pending).lt_size
  · exact has.lt_size

/-- A graph that is continued keeps its records, if what it remembers further has records and no
unfinished type is finished without one. -/
theorem Graph.Recorded.later {earlier later : Graph} (recorded : earlier.Recorded symbols watch)
    (continues : earlier.Continues later)
    (keywords : ∀ keyword id, later.keywords.lookup keyword = some id →
      earlier.keywords.lookup keyword = some id ∨ later.HasKind id (.primitive keyword))
    (literals : ∀ value id, later.literals.lookup value = some id →
      earlier.literals.lookup value = some id ∨ later.HasKind id (.stringLiteral value))
    (instances : ∀ declared id, later.instances.lookup declared = some id →
      (earlier.instances.lookup declared = some id ∧
        (earlier.kind id = .pending → later.kind id = .pending)) ∨
          later.RecordsInstance symbols watch declared id)
    (values : ∀ name id, later.values.lookup name = some id →
      earlier.values.lookup name = some id ∨ later.RecordsValue symbols watch name id) :
    later.Recorded symbols watch where
  keywords keyword id found := by
    rcases keywords keyword id found with held | has
    · exact continues.hasKind (recorded.keywords keyword id held) Kind.noConfusion
    · exact has
  literals value id found := by
    rcases literals value id found with held | has
    · exact continues.hasKind (recorded.literals value id held) Kind.noConfusion
    · exact has
  instances declared id found := by
    rcases instances declared id found with ⟨held, unfinished⟩ | records
    · exact (recorded.instances declared id held).later continues unfinished
    · exact records
  values name id found := by
    rcases values name id found with held | records
    · exact (recorded.values name id held).later continues
    · exact records

end Recorded

/-! ### Steps that keep records -/

/-- The second graph is the first after a step that has come to its end, and keeps its records. -/
structure Graph.AdvancesTo (symbols : Symbols) (watch : Watch) (earlier later : Graph) :
    Prop where
  grows : earlier.GrowsTo later
  recorded : earlier.Recorded symbols watch → later.Recorded symbols watch

/-- Where there is room for it and the test is passed, the step grows the graph and keeps its
records. -/
def Keeps (symbols : Symbols) (watch : Watch) (levels : Nat) (check : Check) {α : Type}
    (step : Building α) : Prop :=
  ∀ graph, symbols.room graph < levels → check graph = true →
    graph.AdvancesTo symbols watch (step graph).2

section Steps

variable {symbols : Symbols} {watch : Watch} {levels : Nat} {check : Check} {α β : Type}

theorem Graph.AdvancesTo.refl (graph : Graph) : graph.AdvancesTo symbols watch graph :=
  ⟨.refl graph, id⟩

theorem Graph.AdvancesTo.trans {first second third : Graph}
    (before : first.AdvancesTo symbols watch second)
    (after : second.AdvancesTo symbols watch third) : first.AdvancesTo symbols watch third :=
  ⟨before.grows.trans after.grows, fun recorded => after.recorded (before.recorded recorded)⟩

theorem Keeps.pure (value : α) : Keeps symbols watch levels check (pure value : Building α) :=
  fun graph _ _ => .refl graph

/-- A step and what follows it keep records where each passes its test. -/
theorem Keeps.bind {step : Building α} {first : Check} {next : α → Check} {rest : α → Building β}
    (before : Keeps symbols watch levels first step)
    (after : ∀ value, Keeps symbols watch levels (next value) (rest value)) :
    Keeps symbols watch levels (first.andThen step next) (step >>= rest) := by
  intro graph enough passed
  obtain ⟨passedFirst, passedNext⟩ := Bool.and_eq_true_iff.mp passed
  have advances := before graph enough passedFirst
  have still : symbols.room (step graph).2 < levels := by
    rw [advances.grows.room_eq]
    exact enough
  exact advances.trans (after (step graph).1 (step graph).2 still passedNext)

/-- A step that reads the graph first. -/
theorem Keeps.look {rest : Graph → Building β}
    (after : ∀ seen, Keeps symbols watch levels check (rest seen)) :
    Keeps symbols watch levels check (get >>= rest) :=
  fun graph enough passed => after graph graph enough passed

/-- A stronger test does as well. -/
theorem Keeps.strengthen {step : Building α} {stronger : Check}
    (keeps : Keeps symbols watch levels check step)
    (implies : ∀ graph, stronger graph = true → check graph = true) :
    Keeps symbols watch levels stronger step :=
  fun graph enough passed => keeps graph enough (implies graph passed)

/-- A further test does no harm. -/
theorem Keeps.and {step : Building α} {first : Check}
    (keeps : Keeps symbols watch levels check step) :
    Keeps symbols watch levels (fun graph => first graph && check graph) step :=
  keeps.strengthen fun _ passed => (Bool.and_eq_true_iff.mp passed).2

/-- What needs no test needs no other. -/
theorem Keeps.always {step : Building α} (keeps : Keeps symbols watch levels .pass step) :
    Keeps symbols watch levels check step :=
  keeps.strengthen fun _ _ => rfl

theorem Keeps.ite {condition : Prop} [Decidable condition] {yes no : Building α}
    (keeps : Keeps symbols watch levels check yes)
    (keeps' : Keeps symbols watch levels check no) :
    Keeps symbols watch levels check (if condition then yes else no) := by
  split
  · exact keeps
  · exact keeps'

/-- A step without a test of its own in front of the rest. -/
theorem Keeps.andThen {step : Building α} {first : Check} {rest : α → Building β}
    (before : Keeps symbols watch levels first step)
    (after : ∀ value, Keeps symbols watch levels .pass (rest value)) :
    Keeps symbols watch levels first (step >>= rest) := by
  have both := before.bind after
  rwa [Check.andThen_pass] at both

/-! ### Nodes -/

/-- A step that reads the graph goes on with it. -/
theorem get_bind_apply (rest : Graph → Building α) (graph : Graph) :
    (get >>= rest) graph = rest graph graph := rfl

/-- A step that goes on with an answer goes on from the graph after it. -/
theorem bind_apply (step : Building α) (rest : α → Building β) (graph : Graph) :
    (step >>= rest) graph = rest (step graph).1 (step graph).2 := rfl

theorem Graph.advancesTo_allocate {kind : Kind} (known : kind ≠ .pending) (text : String)
    (graph : Graph) : graph.AdvancesTo symbols watch (allocate kind text graph).2 := by
  have grows := allocate_grows known text graph
  exact ⟨grows, fun recorded => recorded.later grows.continues (fun _ _ found => .inl found)
    (fun _ _ found => .inl found) (fun _ _ found => .inl ⟨found, grows.unfinished⟩)
    (fun _ _ found => .inl found)⟩

theorem keeps_allocate {kind : Kind} (known : kind ≠ .pending) (text : String) :
    Keeps symbols watch levels check (allocate kind text) :=
  fun graph _ _ => graph.advancesTo_allocate known text

theorem keywordType_of_some {keyword : Keyword} {graph : Graph} {id : TypeId}
    (found : graph.keywords.lookup keyword = some id) :
    keywordType keyword graph = (id, graph) := by
  rw [keywordType, get_bind_apply, found]
  rfl

theorem keywordType_of_none {keyword : Keyword} {graph : Graph}
    (free : graph.keywords.lookup keyword = none) :
    keywordType keyword graph =
      (graph.nodes.size, { (allocate (.primitive keyword) keyword.text graph).2 with
        keywords := (keyword, graph.nodes.size) :: graph.keywords }) := by
  rw [keywordType, get_bind_apply, free]
  rfl

/-- The node of a keyword is remembered. -/
theorem lookup_keywordType (keyword : Keyword) (graph : Graph) :
    (keywordType keyword graph).2.keywords.lookup keyword =
      some (keywordType keyword graph).1 := by
  cases found : graph.keywords.lookup keyword with
  | some id =>
    rw [keywordType_of_some found]
    exact found
  | none =>
    rw [keywordType_of_none found]
    exact List.lookup_cons_self

theorem stringLiteralType_of_some {value : String} {graph : Graph} {id : TypeId}
    (found : graph.literals.lookup value = some id) :
    stringLiteralType value graph = (id, graph) := by
  rw [stringLiteralType, get_bind_apply, found]
  rfl

theorem stringLiteralType_of_none {value : String} {graph : Graph}
    (free : graph.literals.lookup value = none) :
    stringLiteralType value graph =
      (graph.nodes.size, { (allocate (.stringLiteral value) (literalText value) graph).2 with
        literals := (value, graph.nodes.size) :: graph.literals }) := by
  rw [stringLiteralType, get_bind_apply, free]
  rfl

/-- The node of a string literal is remembered. -/
theorem lookup_stringLiteralType (value : String) (graph : Graph) :
    (stringLiteralType value graph).2.literals.lookup value =
      some (stringLiteralType value graph).1 := by
  cases found : graph.literals.lookup value with
  | some id =>
    rw [stringLiteralType_of_some found]
    exact found
  | none =>
    rw [stringLiteralType_of_none found]
    exact List.lookup_cons_self

/-- A keyword that is remembered further adds to the graph. -/
theorem keyword_grows {keyword : Keyword} {graph : Graph}
    (free : graph.keywords.lookup keyword = none) :
    graph.GrowsTo { (allocate (.primitive keyword) keyword.text graph).2 with
      keywords := (keyword, graph.nodes.size) :: graph.keywords } :=
  { allocate_grows Kind.noConfusion keyword.text graph with keywords := .cons _ free }

/-- A literal that is remembered further adds to the graph. -/
theorem literal_grows {value : String} {graph : Graph} (free : graph.literals.lookup value = none) :
    graph.GrowsTo { (allocate (.stringLiteral value) (literalText value) graph).2 with
      literals := (value, graph.nodes.size) :: graph.literals } :=
  { allocate_grows Kind.noConfusion (literalText value) graph with literals := .cons _ free }

theorem keeps_keywordType (keyword : Keyword) :
    Keeps symbols watch levels check (keywordType keyword) := by
  intro graph _ _
  cases found : graph.keywords.lookup keyword with
  | some id =>
    rw [keywordType_of_some found]
    exact .refl graph
  | none =>
    rw [keywordType_of_none found]
    have grows := keyword_grows found
    refine ⟨grows, fun recorded => recorded.later grows.continues ?_ (fun _ _ held => .inl held)
      (fun _ _ held => .inl ⟨held, grows.unfinished⟩) (fun _ _ held => .inl held)⟩
    intro other id held
    rcases lookup_cons_cases held with ⟨rfl, rfl⟩ | before
    · exact .inr (allocate_hasKind (.primitive other) other.text graph)
    · exact .inl before

theorem keeps_stringLiteralType (value : String) :
    Keeps symbols watch levels check (stringLiteralType value) := by
  intro graph _ _
  cases found : graph.literals.lookup value with
  | some id =>
    rw [stringLiteralType_of_some found]
    exact .refl graph
  | none =>
    rw [stringLiteralType_of_none found]
    have grows := literal_grows found
    refine ⟨grows, fun recorded => recorded.later grows.continues (fun _ _ held => .inl held) ?_
      (fun _ _ held => .inl ⟨held, grows.unfinished⟩) (fun _ _ held => .inl held)⟩
    intro other id held
    rcases lookup_cons_cases held with ⟨rfl, rfl⟩ | before
    · exact .inr (allocate_hasKind (.stringLiteral other) (literalText other) graph)
    · exact .inl before

end Steps

end SwiftBindings.TypeGraph
