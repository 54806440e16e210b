/-
**Resolution comes to an end.**

`resolve` and its companions go only so many levels further in (`Symbols.levels`), and what lies deeper
is opaque. Here stands the same search without that bound (`Symbols.searchType`): a declared type or a
value that is asked for is searched for again, however deep it lies, and a search may come to no end, in
which case it has no value. Nothing shrinks from one level to the next: a declared type is replaced by
its body, a value by its type, and arguments may grow. What runs out is the room of the graph
(`Symbols.room`): a declared type that is entered takes one of the `maximalDepth` places, a value that is
entered is not entered again within itself.

`searchExport?_eq_some` states that the search always has a value, and that it is the one that
`exportType?` answers.
-/

import SwiftBindings.Proofs.TypeGraph.Run

set_option linter.unusedSectionVars false

namespace SwiftBindings.TypeGraph

open Declared

/-! ### The search without a bound -/

/-- A step that may come to no end. -/
abbrev Search := StateT Graph Option

/-- A step that always comes to an end. -/
def Search.ofBuilding {α : Type} (step : Building α) : Search α := fun graph => some (step graph)

mutual

/-- The node of a type as written. -/
def Symbols.searchType (symbols : Symbols) (scope : Scope) : TypeExpr → Search TypeId
  | .keyword keyword => .ofBuilding (keywordType keyword)
  | .stringLiteral value => .ofBuilding (stringLiteralType value)
  | .numberLiteral text => .ofBuilding (allocate (.numberLiteral text) text)
  | .booleanLiteral value =>
    .ofBuilding (allocate (.booleanLiteral value) (if value then "true" else "false"))
  | .reference name arguments =>
    match if arguments.isEmpty then scope.lookup name else none with
    | some id => return id
    | none => do
      let ids ← symbols |>.searchTypes scope arguments
      if (symbols.type? name).isSome then symbols |>.searchInstance name ids
      else .ofBuilding (providedType name ids)
  | .array element => do
    let id ← symbols |>.searchType scope element
    .ofBuilding (arrayType id)
  | .tuple elements => do
    let ids ← symbols |>.searchTypes scope elements
    .ofBuilding (tupleType ids)
  | .union members => do
    let ids ← symbols |>.searchAlternatives scope members
    .ofBuilding (unionType ids)
  | .intersection members => do
    let ids ← symbols |>.searchTypes scope members
    .ofBuilding (intersectionType ids)
  | .object members => do
    let shape ← symbols |>.searchMembers scope ⟨[], none⟩ members
    .ofBuilding (objectType shape)
  | .query name => do
    let id ← symbols |>.searchValue ((segments name).headD "")
    match (← get).follow? id (segments name).tail with
    | some found => return found
    | none => .ofBuilding (opaqueNode ("typeof " ++ name))
  | .opaqueText text => .ofBuilding (opaqueNode text)
partial_fixpoint

/-- The nodes of types as written, in order. -/
def Symbols.searchTypes (symbols : Symbols) (scope : Scope) : List TypeExpr → Search (List TypeId)
  | [] => return []
  | type :: rest => do
    let id ← symbols |>.searchType scope type
    let ids ← symbols |>.searchTypes scope rest
    return id :: ids
partial_fixpoint

/-- The alternatives of the members of a union, in order. -/
def Symbols.searchAlternatives (symbols : Symbols) (scope : Scope) :
    List TypeExpr → Search (List TypeId)
  | [] => return []
  | type :: rest => do
    let id ← symbols |>.searchType scope type
    let own := (← get).alternatives id
    let others ← symbols |>.searchAlternatives scope rest
    return own ++ others
partial_fixpoint

/-- The object shape with further members. -/
def Symbols.searchMembers (symbols : Symbols) (scope : Scope) (shape : ObjectShape) :
    List Member → Search ObjectShape
  | [] => return shape
  | .property name optional type :: rest => do
    let id ← symbols |>.searchType scope type
    symbols |>.searchMembers scope { shape with
      properties := upsertProperty shape.properties ⟨name, id, optional⟩ } rest
  | .index key value :: rest => do
    let keyId ← symbols |>.searchType scope key
    let valueId ← symbols |>.searchType scope value
    symbols |>.searchMembers scope (shape.indexed ((← get).kind keyId) valueId) rest
partial_fixpoint

/-- The object shape with the members of bases. -/
def Symbols.searchBases (symbols : Symbols) (scope : Scope) (shape : ObjectShape) :
    List TypeExpr → Search ObjectShape
  | [] => return shape
  | base :: rest => do
    let id ← symbols |>.searchType scope base
    let graph ← get
    symbols |>.searchBases scope {
      properties := (graph.properties id).foldl upsertProperty shape.properties
      index := shape.index.or (graph.index? id) } rest
partial_fixpoint

/-- The scope of a declared type: its parameters with their arguments or defaults. -/
def Symbols.searchParameters (symbols : Symbols) (scope : Scope) :
    List Parameter → List TypeId → Search Scope
  | [], _ => return scope
  | parameter :: rest, argument :: arguments =>
    symbols |>.searchParameters ((parameter.name, argument) :: scope) rest arguments
  | parameter :: rest, [] => do
    let argument ← match parameter.fallback with
      | some fallback => symbols |>.searchType scope fallback
      | none => .ofBuilding (keywordType .unknown)
    symbols |>.searchParameters ((parameter.name, argument) :: scope) rest []
partial_fixpoint

/-- The structure of what a declared type stands for. -/
def Symbols.searchBody (symbols : Symbols) (scope : Scope) (id : TypeId) : Body → Search Kind
  | .typeAlias type => do
    let target ← symbols |>.searchType scope type
    return (← get).aliasKind id target
  | .interface bases members => do
    let inherited ← symbols |>.searchBases scope ⟨[], none⟩ bases
    let own ← symbols |>.searchMembers scope ⟨[], none⟩ members
    return .object {
      properties := own.properties.foldl upsertProperty inherited.properties
      index := own.index.or inherited.index }
partial_fixpoint

/-- The node of a declared type with arguments. -/
def Symbols.searchInstance (symbols : Symbols) (name : String) (arguments : List TypeId) :
    Search TypeId := do
  let graph ← get
  match graph.instances.lookup ⟨name, arguments⟩ with
  | some id => return id
  | none =>
    let text := graph.referenceText name arguments
    match symbols.type? name with
    | none => .ofBuilding (unresolvedType text)
    | some definition =>
      if graph.depth ≥ maximalDepth then .ofBuilding (opaqueNode text)
      else
        let id ← Search.ofBuilding (enterInstance ⟨name, arguments⟩)
        let scope ← symbols |>.searchParameters [] definition.parameters arguments
        let kind ← symbols |>.searchBody scope id definition.body
        Search.ofBuilding (leaveInstance id kind)
        return id
partial_fixpoint

/-- The type of a value. -/
def Symbols.searchValue (symbols : Symbols) (name : String) : Search TypeId := do
  let graph ← get
  match graph.values.lookup name with
  | some id => return id
  | none =>
    match symbols.value? name with
    | none => .ofBuilding (unresolvedType ("typeof " ++ name))
    | some type =>
      if name ∈ graph.resolving then .ofBuilding (opaqueNode ("typeof " ++ name))
      else
        set { graph with resolving := name :: graph.resolving }
        let id ← symbols |>.searchType [] type
        modify fun resolved => { resolved with
          resolving := resolved.resolving.erase name
          values := (name, id) :: resolved.values }
        return id
partial_fixpoint

end

/-- The type of an exported value, or none when no value is exported under the name. -/
def Symbols.searchExport? (symbols : Symbols) (name : String) : Search (Option TypeId) := do
  match symbols.exportedValue? name with
  | some localName => return some (← symbols |>.searchValue localName)
  | none => return none

/-! ### Searches that come to an end -/

section Answers

variable {symbols : Symbols} {levels : Nat} {α β : Type}

/-- Where there is room for it, the search comes to an end, with the answer of the step, and the step
grows the graph. -/
def Answers (symbols : Symbols) (levels : Nat) (search : Search α) (step : Building α) : Prop :=
  ∀ graph, symbols.room graph < levels →
    search graph = some (step graph) ∧ graph.GrowsTo (step graph).2

theorem Answers.pure (value : α) :
    Answers symbols levels (pure value : Search α) (pure value : Building α) :=
  fun graph _ => ⟨rfl, .refl graph⟩

/-- Searches that follow each other come to an end one after the other. -/
theorem Answers.bind {search : Search α} {step : Building α} {next : α → Search β}
    {rest : α → Building β} (first : Answers symbols levels search step)
    (second : ∀ value, Answers symbols levels (next value) (rest value)) :
    Answers symbols levels (search >>= next) (step >>= rest) := by
  intro graph enough
  obtain ⟨ends, grows⟩ := first graph enough
  have still : symbols.room (step graph).2 < levels := by
    rw [grows.room_eq]
    exact enough
  obtain ⟨ends', grows'⟩ := second (step graph).1 (step graph).2 still
  refine ⟨?_, grows.trans grows'⟩
  show (search graph).bind (fun result => next result.1 result.2) = _
  rw [ends]
  exact ends'

/-- A search that reads the graph first. -/
theorem Answers.look {next : Graph → Search β} {rest : Graph → Building β}
    (after : ∀ seen, Answers symbols levels (next seen) (rest seen)) :
    Answers symbols levels (get >>= next) (get >>= rest) :=
  fun graph enough => after graph graph enough

theorem Search.get_bind_apply (next : Graph → Search β) (graph : Graph) :
    (get >>= next) graph = next graph graph := rfl

theorem answers_ofBuilding {step : Building α} (keeps : Keeps symbols .none levels .pass step) :
    Answers symbols levels (.ofBuilding step) step :=
  fun graph enough => ⟨rfl, (keeps graph enough rfl).grows⟩

theorem answers_allocate {kind : Kind} (known : kind ≠ .pending) (text : String) :
    Answers symbols levels (.ofBuilding (allocate kind text)) (allocate kind text) :=
  answers_ofBuilding (keeps_allocate known text)

end Answers

section Levels

variable {symbols : Symbols} {levels : Nat}

/-- One level further in searches come to an end. -/
structure Deeper.Answers (symbols : Symbols) (levels : Nat) (deeper : Deeper) : Prop where
  instantiate : ∀ name arguments, TypeGraph.Answers symbols levels
    (symbols.searchInstance name arguments) (deeper.instantiate name arguments)
  valueType : ∀ name, TypeGraph.Answers symbols levels (symbols.searchValue name)
    (deeper.valueType name)

variable {deeper : Deeper} (further : deeper.Answers symbols levels) (scope : Scope)

include further

mutual

theorem answers_resolve : ∀ type : TypeExpr, Answers symbols levels
    (symbols.searchType scope type) (resolve symbols deeper scope type)
  | .keyword keyword => by
    rw [Symbols.searchType, resolve]
    exact answers_ofBuilding (keeps_keywordType keyword)
  | .stringLiteral value => by
    rw [Symbols.searchType, resolve]
    exact answers_ofBuilding (keeps_stringLiteralType value)
  | .numberLiteral text => by
    rw [Symbols.searchType, resolve]
    exact answers_allocate Kind.noConfusion text
  | .booleanLiteral value => by
    rw [Symbols.searchType, resolve]
    exact answers_allocate Kind.noConfusion _
  | .reference name arguments => by
    rw [Symbols.searchType, resolve]
    generalize (if arguments.isEmpty then scope.lookup name else none) = held
    cases held with
    | some id => exact .pure id
    | none =>
      refine (answers_resolveAll arguments).bind fun ids => ?_
      rw [namedType]
      split
      · exact further.instantiate name ids
      · exact answers_ofBuilding (keeps_providedType name ids)
  | .array element => by
    rw [Symbols.searchType, resolve]
    exact (answers_resolve element).bind fun id =>
      answers_ofBuilding (.look fun _ => keeps_allocate Kind.noConfusion _)
  | .tuple elements => by
    rw [Symbols.searchType, resolve]
    exact (answers_resolveAll elements).bind fun ids =>
      answers_ofBuilding (.look fun _ => keeps_allocate Kind.noConfusion _)
  | .union members => by
    rw [Symbols.searchType, resolve]
    exact (answers_resolveAlternatives members).bind fun ids => answers_ofBuilding (keeps_unionType ids)
  | .intersection members => by
    rw [Symbols.searchType, resolve]
    exact (answers_resolveAll members).bind fun ids =>
      answers_ofBuilding (.look fun _ => keeps_allocate Kind.noConfusion _)
  | .object members => by
    rw [Symbols.searchType, resolve]
    exact (answers_resolveMembers ⟨[], none⟩ members).bind fun shape =>
      answers_ofBuilding (keeps_objectType shape)
  | .query name => by
    rw [Symbols.searchType, resolve, queriedType]
    refine (further.valueType _).bind fun id => .look fun seen => ?_
    cases seen.follow? id (segments name).tail with
    | some found => exact .pure found
    | none => exact answers_allocate Kind.noConfusion _
  | .opaqueText text => by
    rw [Symbols.searchType, resolve]
    exact answers_allocate Kind.noConfusion text

theorem answers_resolveAll : ∀ types : List TypeExpr, Answers symbols levels
    (symbols.searchTypes scope types) (resolveAll symbols deeper scope types)
  | [] => by
    rw [Symbols.searchTypes, resolveAll]
    exact .pure []
  | type :: rest => by
    rw [Symbols.searchTypes, resolveAll]
    exact (answers_resolve type).bind fun _ => (answers_resolveAll rest).bind fun _ => .pure _

theorem answers_resolveAlternatives : ∀ types : List TypeExpr, Answers symbols levels
    (symbols.searchAlternatives scope types)
    (resolveAlternatives symbols deeper scope types)
  | [] => by
    rw [Symbols.searchAlternatives, resolveAlternatives]
    exact .pure []
  | type :: rest => by
    rw [Symbols.searchAlternatives, resolveAlternatives]
    exact (answers_resolve type).bind fun id => .look fun seen =>
      (answers_resolveAlternatives rest).bind fun _ => .pure _

theorem answers_resolveMembers : ∀ (shape : ObjectShape) (members : List Member),
    Answers symbols levels (symbols.searchMembers scope shape members)
      (resolveMembers symbols deeper scope shape members)
  | shape, [] => by
    rw [Symbols.searchMembers, resolveMembers]
    exact .pure shape
  | shape, .property name optional type :: rest => by
    rw [Symbols.searchMembers, resolveMembers]
    exact (answers_resolve type).bind fun _ => answers_resolveMembers _ rest
  | shape, .index key value :: rest => by
    rw [Symbols.searchMembers, resolveMembers]
    exact (answers_resolve key).bind fun _ => (answers_resolve value).bind fun _ =>
      .look fun _ => answers_resolveMembers _ rest

end

theorem answers_resolveBases (shape : ObjectShape) (bases : List TypeExpr) :
    Answers symbols levels (symbols.searchBases scope shape bases)
      (resolveBases symbols deeper scope shape bases) := by
  induction bases generalizing shape with
  | nil =>
    rw [Symbols.searchBases, resolveBases]
    exact .pure shape
  | cons base rest ih =>
    rw [Symbols.searchBases, resolveBases]
    exact (answers_resolve further scope base).bind fun _ => .look fun _ => ih _

theorem answers_bindParameters (parameters : List Parameter) (arguments : List TypeId) :
    Answers symbols levels (symbols.searchParameters scope parameters arguments)
      (bindParameters symbols deeper scope parameters arguments) := by
  induction parameters generalizing scope arguments with
  | nil =>
    rw [Symbols.searchParameters, bindParameters]
    exact .pure scope
  | cons parameter rest ih =>
    cases arguments with
    | cons argument others =>
      rw [Symbols.searchParameters, bindParameters]
      exact ih _ others
    | nil =>
      rw [Symbols.searchParameters, bindParameters]
      cases parameter.fallback with
      | some fallback => exact (answers_resolve further scope fallback).bind fun _ => ih _ []
      | none => exact (answers_ofBuilding (keeps_keywordType .unknown)).bind fun _ => ih _ []

theorem answers_bodyKind (id : TypeId) (body : Body) :
    Answers symbols levels (symbols.searchBody scope id body)
      (bodyKind symbols deeper scope id body) := by
  cases body with
  | typeAlias type =>
    rw [Symbols.searchBody, bodyKind]
    exact (answers_resolve further scope type).bind fun _ => .look fun _ => .pure _
  | interface bases members =>
    rw [Symbols.searchBody, bodyKind]
    exact (answers_resolveBases further scope _ bases).bind fun _ =>
      (answers_resolveMembers further scope _ members).bind fun _ => .pure _

end Levels

/-! ### Declared types and values -/

section Level

variable {symbols : Symbols} {levels : Nat}
  (further : (Deeper.ofLevels symbols levels).Answers symbols levels)

include further

/-- The search for a declared type that is entered comes to an end with the type's own place. -/
theorem instantiate_entered {definition : Definition} {declared : Instance} {graph : Graph}
    (shallow : graph.depth < maximalDepth) (enough : symbols.room graph < levels + 1) :
    let entered := enterInstance declared graph
    let bound := bindParameters symbols (.ofLevels symbols levels) [] definition.parameters
      declared.arguments entered.2
    let body := bodyKind symbols (.ofLevels symbols levels) bound.1 entered.1 definition.body bound.2
    (do
      let id ← Search.ofBuilding (enterInstance declared)
      let scope ← symbols.searchParameters [] definition.parameters declared.arguments
      let kind ← symbols.searchBody scope id definition.body
      Search.ofBuilding (leaveInstance id kind)
      return id : Search TypeId) graph =
      some (entered.1, (leaveInstance entered.1 body.1 body.2).2) := by
  intro entered bound body
  have less : symbols.room entered.2 < levels :=
    Nat.lt_of_lt_of_le (symbols.room_enter declared shallow) (Nat.le_of_lt_succ enough)
  obtain ⟨binds, grows⟩ := answers_bindParameters further [] definition.parameters declared.arguments
    entered.2 less
  have still : symbols.room bound.2 < levels := by
    rw [grows.room_eq]
    exact less
  obtain ⟨resolves, _⟩ :=
    answers_bodyKind further bound.1 entered.1 definition.body bound.2 still
  show (symbols.searchParameters [] definition.parameters declared.arguments entered.2).bind
    (fun bound => (symbols.searchBody bound.1 entered.1 definition.body bound.2).bind
      fun found => some (entered.1, (leaveInstance entered.1 found.1 found.2).2)) = _
  rw [binds, Option.bind_some, resolves, Option.bind_some]

theorem answers_instantiate (name : String) (arguments : List TypeId) :
    Answers symbols (levels + 1) (symbols.searchInstance name arguments)
      (instantiateWith symbols (.ofLevels symbols levels) name arguments) := by
  intro graph enough
  have passed := congrFun
    ((Clear.passes_ofLevels symbols (levels + 1)).instantiate name arguments) graph
  refine ⟨?_, ((Deeper.keeps_ofLevels symbols .none (levels + 1)).instantiate false name arguments
    graph enough passed).grows⟩
  rw [Symbols.searchInstance, Search.get_bind_apply]
  cases free : graph.instances.lookup ⟨name, arguments⟩ with
  | some id =>
    rw [instantiateWith_of_some free]
    rfl
  | none =>
    cases declares : symbols.type? name with
    | none =>
      rw [instantiateWith_undeclared free declares]
      rfl
    | some definition =>
      rw [instantiateWith_declared free declares]
      dsimp only
      by_cases deep : graph.depth ≥ maximalDepth
      · rw [if_pos deep, if_pos deep]
        rfl
      · rw [if_neg deep, if_neg deep]
        exact instantiate_entered further (Nat.lt_of_not_le deep) enough

theorem answers_valueType (name : String) :
    Answers symbols (levels + 1) (symbols.searchValue name)
      (valueTypeWith symbols (.ofLevels symbols levels) name) := by
  intro graph enough
  have passed := congrFun ((Clear.passes_ofLevels symbols (levels + 1)).valueType name) graph
  refine ⟨?_, ((Deeper.keeps_ofLevels symbols .none (levels + 1)).valueType false name graph enough
    passed).grows⟩
  rw [Symbols.searchValue, Search.get_bind_apply]
  cases free : graph.values.lookup name with
  | some id =>
    rw [valueTypeWith_of_some free]
    rfl
  | none =>
    cases declares : symbols.value? name with
    | none =>
      rw [valueTypeWith_undeclared free declares]
      rfl
    | some type =>
      rw [valueTypeWith_declared free declares]
      dsimp only
      by_cases entered : name ∈ graph.resolving
      · rw [if_pos entered, if_pos entered]
        rfl
      · rw [if_neg entered, if_neg entered]
        have less : symbols.room { graph with resolving := name :: graph.resolving } < levels :=
          Nat.lt_of_lt_of_le (Symbols.room_resolving declares entered) (Nat.le_of_lt_succ enough)
        obtain ⟨resolves, _⟩ := answers_resolve further [] type _ less
        show (symbols.searchType [] type { graph with resolving := name :: graph.resolving }).bind
          (fun found => some (found.1, { found.2 with
            resolving := found.2.resolving.erase name
            values := (name, found.1) :: found.2.values })) = _
        rw [resolves, Option.bind_some]

end Level

/-- **At every level searches come to an end.** Without levels there is no room for a step. -/
theorem Deeper.answers_ofLevels (symbols : Symbols) (levels : Nat) :
    (Deeper.ofLevels symbols levels).Answers symbols levels := by
  induction levels with
  | zero => exact ⟨fun _ _ _ enough => absurd enough (Nat.not_lt_zero _),
      fun _ _ enough => absurd enough (Nat.not_lt_zero _)⟩
  | succ levels ih => exact ⟨answers_instantiate ih, answers_valueType ih⟩

/-- **Resolution comes to an end**: in every file, for every export name, and whatever was resolved
before, the search without a bound on its depth has the answer of the one with a bound. -/
theorem searchExport?_eq_some (symbols : Symbols) (name : String) (graph : Graph) :
    symbols.searchExport? name graph = some (exportType? symbols name graph) := by
  rw [Symbols.searchExport?]
  cases exported : symbols.exportedValue? name with
  | none =>
    rw [exportType?_of_none exported]
    rfl
  | some localName =>
    rw [exportType?_of_some exported]
    obtain ⟨ends, _⟩ := (Deeper.answers_ofLevels symbols symbols.levels).valueType localName graph
      (symbols.room_lt_levels graph)
    show (symbols.searchValue localName graph).bind
      (fun found => some (some found.1, found.2)) = _
    rw [ends]
    rfl

end SwiftBindings.TypeGraph
