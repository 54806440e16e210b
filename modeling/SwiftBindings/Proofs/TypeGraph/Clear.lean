/-
**Resolutions that are never cut short.**

While a declared type is being resolved, others meet it unfinished. They may refer to it; but what
looks at its structure — an extending interface, an alias, a query, a type of the framework — then
sees nothing of it. A union looks only for further alternatives, so it may look at an unfinished type
that is declared as an object, a list or an intersection (`Graph.shows`). A resolution is also cut
short where a value asks for its own type, and where declared types are nested too deeply.
`exportsClear` tests that a run is never cut short: it goes along with resolution, and each function
here has the steps of the function that it tests.

A run can also be tested in part. A `Watch` says which declared names count, and a resolution only
counts while the innermost declared name that is being resolved is a watched one. Nothing is ever cut
short where nothing is watched (`Clear.passes_ofLevels`).
-/

import SwiftBindings.Proofs.TypeGraph.Growth

set_option linter.unusedSectionVars false

namespace SwiftBindings.TypeGraph

open Declared

/-! ### Tests along steps -/

/-- A test of the graph that a step starts from. -/
abbrev Check := Graph → Bool

/-- The test that every graph passes. -/
def Check.pass : Check := fun _ => true

/-- A test, a step, and a test of what follows the step. -/
def Check.andThen {α : Type} (first : Check) (step : Building α) (next : α → Check) : Check :=
  fun graph => first graph && next (step graph).1 (step graph).2

@[simp] theorem Check.andThen_pass {α : Type} (first : Check) (step : Building α) :
    first.andThen step (fun _ => Check.pass) = first := by
  funext graph
  exact Bool.and_true _

/-- A test that counts only where it is watched. -/
def Check.watched (own : Bool) (test : Check) : Check := fun graph => !own || test graph

/-! ### What is looked at -/

/-- What a walk over properties visits through at most the given number of levels is known. -/
def Graph.knowsWithin (graph : Graph) : Nat → TypeId → Bool
  | 0, _ => true
  | levels + 1, id =>
    graph.isKnown id &&
      match graph.kind id with
      | .intersection parts => parts.all (graph.knowsWithin levels)
      | _ => true

/-- All that decides on the properties of a type is known. -/
def Graph.knowsProperties (graph : Graph) (id : TypeId) : Bool :=
  graph.knowsWithin (walkDepth + 1) id

/-- The structure of the type of a property is known as well. -/
def Graph.knowsProperty (graph : Graph) (id : TypeId) (name : String) : Bool :=
  graph.knowsProperties id &&
    (graph.property? id name).all fun property => graph.isKnown property.type

/-- The declared type is an object, a list or an intersection, as its declaration shows. -/
def Body.isStructural : Body → Bool
  | .interface _ _ => true
  | .typeAlias (.object _) => true
  | .typeAlias (.array _) => true
  | .typeAlias (.tuple _) => true
  | .typeAlias (.intersection _) => true
  | .typeAlias _ => false

/-- The structure of a type is known, or it shows that the type will be an object, a list or an
intersection. -/
def Graph.shows (symbols : Symbols) (graph : Graph) (id : TypeId) : Bool :=
  graph.isKnown id || graph.instances.any fun entry =>
    graph.instances.lookup entry.1 == some id &&
      (symbols.type? entry.1.name).any fun definition => definition.body.isStructural

/-- It shows what a type and its alternatives are. -/
def Graph.showsMembers (symbols : Symbols) (graph : Graph) (id : TypeId) : Bool :=
  graph.shows symbols id && ((graph.unionMembers? id).getD []).all (graph.shows symbols)

/-- All types along a path of properties are known. -/
def Graph.knowsPath (graph : Graph) : TypeId → List String → Bool
  | _, [] => true
  | id, name :: rest =>
    graph.knowsProperties id &&
      (graph.property? id name).all fun property => graph.knowsPath property.type rest

/-! ### Types of the framework -/

/-- Tests the filtering of properties. -/
def clearKept (keep : TypeId → Building (Option TypeId)) (clear : TypeId → Check) :
    List Property → Check
  | [] => .pass
  | property :: rest =>
    (clear property.type).andThen (keep property.type) fun _ => clearKept keep clear rest

/-- Tests the filtering of functions through at most the given number of levels. -/
def clearFilterWithin (wanted : Option String) : Nat → TypeId → Check
  | 0, _ => .pass
  | levels + 1, id => fun graph =>
    graph.knowsProperties id &&
      if graph.isMarkedReference id then wanted.isNone || graph.knowsProperty id "_visibility"
      else !graph.isStructured id ||
        clearKept (filterWithin wanted levels) (clearFilterWithin wanted levels)
          (graph.properties id) graph

/-- Tests the filtering of the functions of an interface. -/
def clearFiltered (api filter : TypeId) : Check := fun graph =>
  graph.isKnown api &&
    (!graph.isStructured api ||
      (graph.knowsProperty filter "_visibility" &&
        clearFilterWithin (graph.literalProperty? filter "_visibility") (walkDepth + 1) api graph))

/-- Tests the type of a name that no file declares. -/
def clearProvided (symbols : Symbols) (name : String) (arguments : List TypeId) : Check :=
  match name, arguments with
  | "Array", [_] => .pass
  | "ReadonlyArray", [_] => .pass
  | "Record", [key, _] => fun graph => graph.showsMembers symbols key
  | "NonNullable", [target] => fun graph => graph.showsMembers symbols target
  | "FilterApi", [api, filter] => clearFiltered api filter
  | _, [target] =>
    match PresenceChange.ofName? name with
    | some _ => fun graph => graph.knowsProperties target
    | none => .pass
  | _, _ => .pass

/-! ### Types as written -/

/-- Tests of the resolution of declared names one level further in. Each is given whether the
declared name that asks is watched. -/
structure Clear where
  /-- Tests a declared type with arguments. -/
  instantiate : Bool → String → List TypeId → Check
  /-- Tests a value. -/
  valueType : Bool → String → Check

section Types

variable (symbols : Symbols) (deeper : Deeper) (clear : Clear) (own : Bool) (scope : Scope)

/-- Tests a name with arguments. -/
def clearNamed (name : String) (arguments : List TypeId) : Check :=
  if (symbols.type? name).isSome then clear.instantiate own name arguments
  else (clearProvided symbols name arguments).watched own

/-- Tests the type of a value or of one of its properties. -/
def clearQueried (name : String) : Check :=
  (clear.valueType own ((segments name).headD "")).andThen
    (deeper.valueType ((segments name).headD "")) fun id =>
      Check.watched own fun graph => graph.knowsPath id (segments name).tail

mutual

/-- Tests a type as written. -/
def clearType : TypeExpr → Check
  | .keyword _ => .pass
  | .stringLiteral _ => .pass
  | .numberLiteral _ => .pass
  | .booleanLiteral _ => .pass
  | .reference name arguments =>
    match if arguments.isEmpty then scope.lookup name else none with
    | some _ => .pass
    | none => (clearAll arguments).andThen (resolveAll symbols deeper scope arguments)
        fun ids => clearNamed symbols clear own name ids
  | .array element => clearType element
  | .tuple elements => clearAll elements
  | .union members => clearAlternatives members
  | .intersection members => clearAll members
  | .object members => clearMembers members
  | .query name => clearQueried deeper clear own name
  | .opaqueText _ => .pass

/-- Tests types as written, in order. -/
def clearAll : List TypeExpr → Check
  | [] => .pass
  | type :: rest =>
    (clearType type).andThen (resolve symbols deeper scope type) fun _ => clearAll rest

/-- Tests the members of a union. -/
def clearAlternatives : List TypeExpr → Check
  | [] => .pass
  | type :: rest =>
    (clearType type).andThen (resolve symbols deeper scope type) fun id graph =>
      Check.watched own (fun graph => graph.shows symbols id) graph && clearAlternatives rest graph

/-- Tests the members of an object type. -/
def clearMembers : List Member → Check
  | [] => .pass
  | .property _ _ type :: rest =>
    (clearType type).andThen (resolve symbols deeper scope type) fun _ => clearMembers rest
  | .index key value :: rest =>
    (clearType key).andThen (resolve symbols deeper scope key) fun keyId =>
      (clearType value).andThen (resolve symbols deeper scope value) fun _ graph =>
        Check.watched own (fun graph => graph.shows symbols keyId) graph && clearMembers rest graph

end

/-- Tests the bases of an interface. -/
def clearBases : List TypeExpr → Check
  | [] => .pass
  | base :: rest =>
    (clearType symbols deeper clear own scope base).andThen
      (resolve symbols deeper scope base) fun id graph =>
        Check.watched own (fun graph => graph.knowsProperties id) graph && clearBases rest graph

end Types

/-! ### Declared types and values -/

/-- Tests the parameters of a declared type. -/
def clearParameters (symbols : Symbols) (deeper : Deeper) (clear : Clear) (own : Bool)
    (scope : Scope) : List Parameter → List TypeId → Check
  | [], _ => .pass
  | parameter :: rest, argument :: arguments =>
    clearParameters symbols deeper clear own ((parameter.name, argument) :: scope) rest arguments
  | parameter :: rest, [] =>
    match parameter.fallback with
    | some fallback =>
      (clearType symbols deeper clear own scope fallback).andThen
        (resolve symbols deeper scope fallback) fun argument =>
          clearParameters symbols deeper clear own ((parameter.name, argument) :: scope) rest []
    | none =>
      Check.pass.andThen (keywordType .unknown) fun argument =>
        clearParameters symbols deeper clear own ((parameter.name, argument) :: scope) rest []

/-- Tests what a declared type stands for. -/
def clearBody (symbols : Symbols) (deeper : Deeper) (clear : Clear) (own : Bool) (scope : Scope) :
    Body → Check
  | .typeAlias type =>
    (clearType symbols deeper clear own scope type).andThen (resolve symbols deeper scope type)
      fun target => Check.watched own fun graph => graph.isKnown target
  | .interface bases members =>
    (clearBases symbols deeper clear own scope bases).andThen
      (resolveBases symbols deeper scope ⟨[], none⟩ bases) fun _ =>
        clearMembers symbols deeper clear own scope members

/-- Tests the resolution of a declared type from its parameters on. -/
def clearDefinition (symbols : Symbols) (deeper : Deeper) (clear : Clear) (own : Bool)
    (definition : Definition) (arguments : List TypeId) : Check :=
  (clearParameters symbols deeper clear own [] definition.parameters arguments).andThen
    (bindParameters symbols deeper [] definition.parameters arguments) fun scope =>
      clearBody symbols deeper clear own scope definition.body

/-- The declared names that count. -/
structure Watch where
  /-- Declared types. -/
  types : String → Bool
  /-- Declared values. -/
  values : String → Bool

/-- All declared names. -/
def Watch.all : Watch := ⟨fun _ => true, fun _ => true⟩

/-- No declared name. -/
def Watch.none : Watch := ⟨fun _ => false, fun _ => false⟩

/-- The declared names that are resolved in a graph. -/
def Graph.resolvedNames (graph : Graph) : Watch where
  types name := graph.instances.any fun entry => entry.1.name == name
  values name := (graph.values.lookup name).isSome

/-- Tests a declared type with arguments. -/
def clearInstantiate (symbols : Symbols) (watch : Watch) (deeper : Deeper) (clear : Clear)
    (own : Bool) (name : String) (arguments : List TypeId) : Check := fun graph =>
  match graph.instances.lookup ⟨name, arguments⟩ with
  | some _ => true
  | none =>
    match symbols.type? name with
    | none => true
    | some definition =>
      if graph.depth ≥ maximalDepth then !own
      else clearDefinition symbols deeper clear (watch.types name) definition arguments
        (enterInstance ⟨name, arguments⟩ graph).2

/-- Tests a value. -/
def clearValue (symbols : Symbols) (watch : Watch) (deeper : Deeper) (clear : Clear)
    (own : Bool) (name : String) : Check := fun graph =>
  match graph.values.lookup name with
  | some _ => true
  | none =>
    match symbols.value? name with
    | none => true
    | some type =>
      if name ∈ graph.resolving then !own
      else clearType symbols deeper clear (watch.values name) [] type
        { graph with resolving := name :: graph.resolving }

/-- Tests the given number of levels further in. -/
def Clear.ofLevels (symbols : Symbols) (watch : Watch) : Nat → Clear
  | 0 => ⟨fun _ _ _ => .pass, fun _ _ => .pass⟩
  | levels + 1 => {
      instantiate := clearInstantiate symbols watch (.ofLevels symbols levels)
        (ofLevels symbols watch levels)
      valueType := clearValue symbols watch (.ofLevels symbols levels)
        (ofLevels symbols watch levels) }

/-! ### Runs -/

/-- Tests the type of an exported value. -/
def clearExport (symbols : Symbols) (watch : Watch) (name : String) : Check :=
  match symbols.exportedValue? name with
  | some localName =>
    (Clear.ofLevels symbols watch symbols.levels).valueType true localName
  | none => .pass

/-- The graph after the types of exported values were asked for in turn. -/
def graphAfter (symbols : Symbols) (names : List String) (graph : Graph) : Graph :=
  names.foldl (fun graph name => (exportType? symbols name graph).2) graph

/-- Tests the types of exported values in turn. -/
def exportsClear (symbols : Symbols) (watch : Watch) : List String → Check
  | [] => .pass
  | name :: rest =>
    (clearExport symbols watch name).andThen (exportType? symbols name) fun _ =>
      exportsClear symbols watch rest

/-! ### Nothing is watched -/

@[simp] theorem Check.pass_andThen {α : Type} (step : Building α) (next : α → Check) :
    Check.pass.andThen step next = fun graph => next (step graph).1 (step graph).2 := by
  funext graph
  exact Bool.true_and _

/-- Every graph passes the tests one level further in where an unwatched name asks. -/
structure Clear.Passes (clear : Clear) : Prop where
  instantiate : ∀ name arguments, clear.instantiate false name arguments = .pass
  valueType : ∀ name, clear.valueType false name = .pass

section Unwatched

variable {symbols : Symbols} {deeper : Deeper} {clear : Clear} (passes : clear.Passes)
  (scope : Scope)

include passes

mutual

theorem clearType_unwatched : ∀ type : TypeExpr,
    clearType symbols deeper clear false scope type = .pass
  | .keyword _ => by rw [clearType]
  | .stringLiteral _ => by rw [clearType]
  | .numberLiteral _ => by rw [clearType]
  | .booleanLiteral _ => by rw [clearType]
  | .reference name arguments => by
    rw [clearType, clearAll_unwatched arguments, Check.pass_andThen]
    split
    · rfl
    · funext graph
      rw [clearNamed]
      split
      · rw [passes.instantiate]
        rfl
      · rfl
  | .array element => by rw [clearType, clearType_unwatched element]
  | .tuple elements => by rw [clearType, clearAll_unwatched elements]
  | .union members => by rw [clearType, clearAlternatives_unwatched members]
  | .intersection members => by rw [clearType, clearAll_unwatched members]
  | .object members => by rw [clearType, clearMembers_unwatched members]
  | .query name => by
    rw [clearType, clearQueried, passes.valueType]
    rfl
  | .opaqueText _ => by rw [clearType]

theorem clearAll_unwatched : ∀ types : List TypeExpr,
    clearAll symbols deeper clear false scope types = .pass
  | [] => by rw [clearAll]
  | type :: rest => by
    rw [clearAll, clearType_unwatched type, clearAll_unwatched rest, Check.andThen_pass]

theorem clearAlternatives_unwatched : ∀ types : List TypeExpr,
    clearAlternatives symbols deeper clear false scope types = .pass
  | [] => by rw [clearAlternatives]
  | type :: rest => by
    rw [clearAlternatives, clearType_unwatched type, clearAlternatives_unwatched rest]
    rfl

theorem clearMembers_unwatched : ∀ members : List Member,
    clearMembers symbols deeper clear false scope members = .pass
  | [] => by rw [clearMembers]
  | .property _ _ type :: rest => by
    rw [clearMembers, clearType_unwatched type, clearMembers_unwatched rest, Check.andThen_pass]
  | .index key value :: rest => by
    rw [clearMembers, clearType_unwatched key, clearType_unwatched value,
      clearMembers_unwatched rest]
    rfl

end

theorem clearBases_unwatched (bases : List TypeExpr) :
    clearBases symbols deeper clear false scope bases = .pass := by
  induction bases with
  | nil => rfl
  | cons base rest ih =>
    rw [clearBases, clearType_unwatched passes scope base, ih]
    rfl

theorem clearParameters_unwatched (parameters : List Parameter) (arguments : List TypeId) :
    clearParameters symbols deeper clear false scope parameters arguments = .pass := by
  induction parameters generalizing scope arguments with
  | nil => rw [clearParameters]
  | cons parameter rest ih =>
    cases arguments with
    | cons argument others =>
      rw [clearParameters]
      exact ih _ others
    | nil =>
      rw [clearParameters]
      cases parameter.fallback with
      | none =>
        dsimp only
        simp only [ih]
        rfl
      | some fallback =>
        dsimp only
        rw [clearType_unwatched passes scope fallback]
        simp only [ih]
        rfl

theorem clearBody_unwatched (body : Body) :
    clearBody symbols deeper clear false scope body = .pass := by
  cases body with
  | typeAlias type =>
    rw [clearBody, clearType_unwatched passes scope type]
    rfl
  | interface bases members =>
    rw [clearBody, clearBases_unwatched passes scope bases,
      clearMembers_unwatched passes scope members]
    rfl

theorem clearDefinition_unwatched (definition : Definition) (arguments : List TypeId) :
    clearDefinition symbols deeper clear false definition arguments = .pass := by
  rw [clearDefinition, clearParameters_unwatched passes, Check.pass_andThen]
  funext graph
  rw [clearBody_unwatched passes]
  rfl

end Unwatched

/-- **Where nothing is watched, nothing is cut short**, whoever asks. -/
theorem Clear.passes_ofLevels (symbols : Symbols) (levels : Nat) :
    (Clear.ofLevels symbols .none levels).Passes := by
  induction levels with
  | zero => exact ⟨fun _ _ => rfl, fun _ => rfl⟩
  | succ levels ih =>
    constructor
    · intro name arguments
      funext graph
      show clearInstantiate symbols .none _ _ false name arguments graph = true
      rw [clearInstantiate]
      split
      · rfl
      · split
        · rfl
        · split
          · rfl
          · exact congrFun (clearDefinition_unwatched ih _ _) _
    · intro name
      funext graph
      show clearValue symbols .none _ _ false name graph = true
      rw [clearValue]
      split
      · rfl
      · split
        · rfl
        · split
          · rfl
          · exact congrFun (clearType_unwatched ih _ _) _

end SwiftBindings.TypeGraph
