/-
**Resolution keeps records.**

Every step of resolution keeps records where there is room for it and it passes its test (`Keeps`).
The steps on types as written are composed of those of one level further in (`Deeper.Keeps`), and so
are those on bases, parameters and bodies. Entering and leaving a declared type keep records as well;
what asking for one comes to is stated here by equations (`instantiateWith_declared`,
`valueTypeWith_declared`).
-/

import SwiftBindings.Proofs.TypeGraph.Record

set_option linter.unusedSectionVars false

namespace SwiftBindings.TypeGraph

open Declared

section Steps

variable {symbols : Symbols} {watch : Watch} {levels : Nat} {check : Check}

/-! ### Types of the framework -/

theorem keeps_recordType (key value : TypeId) :
    Keeps symbols watch levels .pass (recordType key value) :=
  .look fun _ => keeps_allocate Kind.noConfusion _

theorem keeps_presenceType (name : String) (change : PresenceChange) (target : TypeId) :
    Keeps symbols watch levels .pass (presenceType name change target) :=
  .look fun _ => .ite (keeps_allocate Kind.noConfusion _) (keeps_allocate Kind.noConfusion _)

theorem keeps_unionType (members : List TypeId) :
    Keeps symbols watch levels .pass (unionType members) :=
  .look fun _ => keeps_allocate Kind.noConfusion _

theorem keeps_objectType (shape : ObjectShape) :
    Keeps symbols watch levels .pass (objectType shape) :=
  .look fun _ => keeps_allocate Kind.noConfusion _

theorem keeps_nonNullableType (target : TypeId) :
    Keeps symbols watch levels .pass (nonNullableType target) := by
  refine .look fun seen => ?_
  cases seen.unionMembers? target with
  | none => exact .pure _
  | some members =>
    dsimp only
    split
    · exact .pure _
    · exact keeps_unionType _

theorem keeps_keepProperties {keep : TypeId → Building (Option TypeId)}
    (keeps : ∀ id, Keeps symbols watch levels .pass (keep id)) (properties : List Property) :
    Keeps symbols watch levels .pass (keepProperties keep properties) := by
  induction properties with
  | nil => exact .pure _
  | cons property rest ih =>
    refine (keeps property.type).andThen fun kept => ?_
    cases kept with
    | none => exact ih
    | some type => exact ih.andThen fun _ => .pure _

theorem keeps_filterWithin (wanted : Option String) (walk : Nat) (id : TypeId) :
    Keeps symbols watch levels .pass (filterWithin wanted walk id) := by
  induction walk generalizing id with
  | zero => exact .pure _
  | succ walk ih =>
    refine .look fun seen => ?_
    split
    · cases wanted with
      | none => exact .pure _
      | some visibility => exact .pure _
    · split
      · exact .pure _
      · refine (keeps_keepProperties ih _).andThen fun kept => ?_
        split
        · exact .pure _
        · exact (keeps_objectType _).andThen fun _ => .pure _

theorem keeps_filteredType (api filter : TypeId) :
    Keeps symbols watch levels .pass (filteredType api filter) := by
  refine .look fun seen => ?_
  split
  · refine (keeps_filterWithin _ _ _).andThen fun kept => ?_
    cases kept with
    | some id => exact .pure _
    | none => exact keeps_allocate Kind.noConfusion _
  · exact keeps_allocate Kind.noConfusion _

theorem keeps_providedType (name : String) (arguments : List TypeId) :
    Keeps symbols watch levels .pass (providedType name arguments) := by
  unfold providedType
  split
  · exact .look fun _ => keeps_allocate Kind.noConfusion _
  · exact .look fun _ => keeps_allocate Kind.noConfusion _
  · exact keeps_recordType _ _
  · exact keeps_nonNullableType _
  · exact keeps_filteredType _ _
  · split
    · exact keeps_presenceType _ _ _
    · exact .look fun _ => keeps_allocate Kind.noConfusion _
  · exact .look fun _ => keeps_allocate Kind.noConfusion _

/-! ### Types as written -/

/-- Resolution one level further in keeps records. -/
structure Deeper.Keeps (symbols : Symbols) (watch : Watch) (levels : Nat) (deeper : Deeper)
    (clear : Clear) : Prop where
  instantiate : ∀ own name arguments, TypeGraph.Keeps symbols watch levels
    (clear.instantiate own name arguments) (deeper.instantiate name arguments)
  valueType : ∀ own name, TypeGraph.Keeps symbols watch levels (clear.valueType own name)
    (deeper.valueType name)

variable {deeper : Deeper} {clear : Clear} (further : deeper.Keeps symbols watch levels clear)
  (own : Bool) (scope : Scope)

include further

theorem keeps_namedType (name : String) (arguments : List TypeId) :
    Keeps symbols watch levels (clearNamed symbols clear own name arguments)
      (namedType symbols deeper name arguments) := by
  rw [clearNamed, namedType]
  split
  · exact further.instantiate own name arguments
  · exact (keeps_providedType name arguments).always

theorem keeps_queriedType (name : String) :
    Keeps symbols watch levels (clearQueried deeper clear own name) (queriedType deeper name) := by
  refine (further.valueType own _).bind fun id => ?_
  refine Keeps.always (.look fun seen => ?_)
  cases seen.follow? id (segments name).tail with
  | some found => exact .pure _
  | none => exact keeps_allocate Kind.noConfusion _

mutual

/-- **Resolving a type as written keeps records.** -/
theorem keeps_resolve : ∀ type : TypeExpr,
    Keeps symbols watch levels (clearType symbols deeper clear own scope type)
      (resolve symbols deeper scope type)
  | .keyword keyword => keeps_keywordType keyword
  | .stringLiteral value => keeps_stringLiteralType value
  | .numberLiteral _ => keeps_allocate Kind.noConfusion _
  | .booleanLiteral _ => keeps_allocate Kind.noConfusion _
  | .reference name arguments => by
    rw [clearType, resolve]
    generalize (if arguments.isEmpty then scope.lookup name else none) = held
    cases held with
    | some id => exact .pure _
    | none =>
      exact (keeps_resolveAll arguments).bind fun ids => keeps_namedType further own name ids
  | .array element => by
    rw [clearType, resolve]
    exact (keeps_resolve element).andThen fun _ => .look fun _ => keeps_allocate Kind.noConfusion _
  | .tuple elements => by
    rw [clearType, resolve]
    exact (keeps_resolveAll elements).andThen fun _ => .look fun _ => keeps_allocate Kind.noConfusion _
  | .union members => by
    rw [clearType, resolve]
    exact (keeps_resolveAlternatives members).andThen fun _ => keeps_unionType _
  | .intersection members => by
    rw [clearType, resolve]
    exact (keeps_resolveAll members).andThen fun _ => .look fun _ => keeps_allocate Kind.noConfusion _
  | .object members => by
    rw [clearType, resolve]
    exact (keeps_resolveMembers ⟨[], none⟩ members).andThen fun _ => keeps_objectType _
  | .query name => by
    rw [clearType, resolve]
    exact keeps_queriedType further own name
  | .opaqueText text => by
    rw [resolve]
    exact keeps_allocate Kind.noConfusion text

theorem keeps_resolveAll : ∀ types : List TypeExpr,
    Keeps symbols watch levels (clearAll symbols deeper clear own scope types)
      (resolveAll symbols deeper scope types)
  | [] => .pure _
  | type :: rest => by
    rw [clearAll, resolveAll]
    exact (keeps_resolve type).bind fun _ => (keeps_resolveAll rest).andThen fun _ => .pure _

theorem keeps_resolveAlternatives : ∀ types : List TypeExpr,
    Keeps symbols watch levels (clearAlternatives symbols deeper clear own scope types)
      (resolveAlternatives symbols deeper scope types)
  | [] => .pure _
  | type :: rest => by
    rw [clearAlternatives, resolveAlternatives]
    refine (keeps_resolve type).bind fun id => .look fun seen => ?_
    exact (keeps_resolveAlternatives rest).and.andThen fun _ => .pure _

theorem keeps_resolveMembers : ∀ (shape : ObjectShape) (members : List Member),
    Keeps symbols watch levels (clearMembers symbols deeper clear own scope members)
      (resolveMembers symbols deeper scope shape members)
  | _, [] => .pure _
  | _, .property _ _ type :: rest => by
    rw [clearMembers, resolveMembers]
    exact (keeps_resolve type).bind fun _ => keeps_resolveMembers _ rest
  | _, .index key value :: rest => by
    rw [clearMembers, resolveMembers]
    refine (keeps_resolve key).bind fun keyId => (keeps_resolve value).bind fun valueId => ?_
    exact .look fun seen => (keeps_resolveMembers _ rest).and

end

theorem keeps_resolveBases (shape : ObjectShape) (bases : List TypeExpr) :
    Keeps symbols watch levels (clearBases symbols deeper clear own scope bases)
      (resolveBases symbols deeper scope shape bases) := by
  induction bases generalizing shape with
  | nil => exact .pure _
  | cons base rest ih =>
    rw [clearBases, resolveBases]
    exact (keeps_resolve further own scope base).bind fun id => .look fun seen => (ih _).and

/-! ### Declared types and values -/

theorem keeps_bindParameters (parameters : List Parameter) (arguments : List TypeId) :
    Keeps symbols watch levels (clearParameters symbols deeper clear own scope parameters arguments)
      (bindParameters symbols deeper scope parameters arguments) := by
  induction parameters generalizing scope arguments with
  | nil => exact .pure _
  | cons parameter rest ih =>
    cases arguments with
    | cons argument others => exact ih _ others
    | nil =>
      rw [clearParameters, bindParameters]
      cases parameter.fallback with
      | some fallback => exact (keeps_resolve further own scope fallback).bind fun _ => ih _ []
      | none => exact (keeps_keywordType .unknown).bind fun _ => ih _ []

theorem keeps_bodyKind (id : TypeId) (body : Body) :
    Keeps symbols watch levels (clearBody symbols deeper clear own scope body)
      (bodyKind symbols deeper scope id body) := by
  cases body with
  | typeAlias type =>
    rw [clearBody, bodyKind]
    exact (keeps_resolve further own scope type).bind fun _ => Keeps.always (.look fun _ => .pure _)
  | interface bases members =>
    rw [clearBody, bodyKind]
    exact (keeps_resolveBases further own scope _ bases).bind fun _ =>
      (keeps_resolveMembers further own scope _ members).andThen fun _ => .pure _

end Steps

/-! ### Entering and leaving a declared type -/

theorem enterInstance_eq (declared : Instance) (graph : Graph) :
    enterInstance declared graph =
      (graph.nodes.size, { (allocate .pending
          (graph.referenceText declared.name declared.arguments) graph).2 with
        instances := (declared, graph.nodes.size) :: graph.instances
        depth := graph.depth + 1 }) := rfl

theorem leaveInstance_eq (id : TypeId) (kind : Kind) (graph : Graph) :
    (leaveInstance id kind graph).2 = { graph with
      nodes := graph.nodes.modify id fun node => { node with kind }
      depth := graph.depth - 1 } := rfl

section Enter

variable {symbols : Symbols} {watch : Watch} {graph : Graph} (declared : Instance)

theorem enterInstance_node {id : TypeId} {node : Node} (found : graph.nodes[id]? = some node) :
    (enterInstance declared graph).2.nodes[id]? = some node :=
  getElem?_push_of_some _ found

theorem enterInstance_hasKind :
    (enterInstance declared graph).2.HasKind graph.nodes.size .pending :=
  allocate_hasKind .pending _ graph

theorem enterInstance_kind (id : TypeId) :
    (enterInstance declared graph).2.kind id =
      if id = graph.nodes.size then .pending else graph.kind id :=
  kind_allocate .pending _ graph id

theorem enterInstance_continues (free : graph.instances.lookup declared = none) :
    graph.Continues (enterInstance declared graph).2 where
  nodes _ _ found _ := enterInstance_node declared found
  keywords := .refl _
  literals := .refl _
  instances := .cons _ free
  values := .refl _

/-- What is remembered after a declared type is entered is that type, or was remembered before. -/
theorem lookup_enterInstance {declared other : Instance} {id : TypeId}
    (found : (enterInstance declared graph).2.instances.lookup other = some id) :
    (other = declared ∧ id = graph.nodes.size) ∨ graph.instances.lookup other = some id := by
  rw [enterInstance_eq] at found
  exact lookup_cons_cases found

/-- A graph keeps its records when a declared type is entered. -/
theorem Graph.Recorded.enter (recorded : graph.Recorded symbols watch)
    (free : graph.instances.lookup declared = none) :
    (enterInstance declared graph).2.Recorded symbols watch := by
  refine recorded.later (enterInstance_continues declared free) (fun _ _ found => .inl found)
    (fun _ _ found => .inl found) (fun other id found => ?_) (fun _ _ found => .inl found)
  rcases lookup_enterInstance found with ⟨rfl, rfl⟩ | before
  · exact .inr (.inl (enterInstance_hasKind other).kind_eq)
  · refine .inl ⟨before, fun pending => ?_⟩
    rw [enterInstance_kind]
    split
    · rfl
    · exact pending

/-- Entering a declared type takes room. -/
theorem Symbols.room_enter (symbols : Symbols) (shallow : graph.depth < maximalDepth) :
    symbols.room (enterInstance declared graph).2 < symbols.room graph := by
  have deeper : maximalDepth - (graph.depth + 1) < maximalDepth - graph.depth := by omega
  exact Nat.add_lt_add_right deeper _

/-- The structure that a body gives to a declared type is known. -/
theorem bodyKind_ne_pending (deeper : Deeper) (scope : Scope) (id : TypeId) (body : Body)
    (graph : Graph) : (bodyKind symbols deeper scope id body graph).1 ≠ .pending := by
  cases body with
  | interface bases members => exact Kind.noConfusion
  | typeAlias type =>
    show Graph.aliasKind _ id _ ≠ .pending
    rw [Graph.aliasKind]
    split
    · exact Kind.noConfusion
    · split
      · exact Kind.noConfusion
      · rename_i known
        exact known

end Enter

section Leave

variable {symbols : Symbols} {watch : Watch} {graph : Graph} {id : TypeId} {kind : Kind}

theorem leaveInstance_node_of_ne {other : TypeId} (different : other ≠ id) :
    (leaveInstance id kind graph).2.nodes[other]? = graph.nodes[other]? := by
  rw [leaveInstance_eq]
  show (graph.nodes.modify id _)[other]? = _
  rw [Array.getElem?_modify, if_neg different.symm]

theorem leaveInstance_kind_of_ne {other : TypeId} (different : other ≠ id) :
    (leaveInstance id kind graph).2.kind other = graph.kind other := by
  rw [Graph.kind, leaveInstance_node_of_ne different, Graph.kind]

theorem leaveInstance_hasKind (unfinished : graph.HasKind id .pending) :
    (leaveInstance id kind graph).2.HasKind id kind := by
  obtain ⟨text, found⟩ := unfinished
  refine ⟨text, ?_⟩
  rw [leaveInstance_eq]
  show (graph.nodes.modify id _)[id]? = _
  rw [Array.getElem?_modify, if_pos rfl, found]
  rfl

theorem leaveInstance_continues (unfinished : graph.HasKind id .pending) :
    graph.Continues (leaveInstance id kind graph).2 where
  nodes other node found known := by
    have different : other ≠ id := by
      rintro rfl
      obtain ⟨text, held⟩ := unfinished
      rw [held] at found
      cases found
      exact known rfl
    rw [leaveInstance_node_of_ne different]
    exact found
  keywords := .refl _
  literals := .refl _
  instances := .refl _
  values := .refl _

end Leave

/-! ### One level further in -/

section Level

variable {symbols : Symbols} {watch : Watch} {levels : Nat}

theorem instantiateWith_of_some {deeper : Deeper} {name : String} {arguments : List TypeId}
    {graph : Graph} {id : TypeId} (found : graph.instances.lookup ⟨name, arguments⟩ = some id) :
    instantiateWith symbols deeper name arguments graph = (id, graph) := by
  rw [instantiateWith, get_bind_apply, found]
  rfl

theorem instantiateWith_undeclared {deeper : Deeper} {name : String} {arguments : List TypeId}
    {graph : Graph} (free : graph.instances.lookup ⟨name, arguments⟩ = none)
    (undeclared : symbols.type? name = none) :
    instantiateWith symbols deeper name arguments graph =
      unresolvedType (graph.referenceText name arguments) graph := by
  rw [instantiateWith, get_bind_apply, free]
  dsimp only
  rw [undeclared]

theorem instantiateWith_declared {deeper : Deeper} {name : String} {arguments : List TypeId}
    {graph : Graph} (free : graph.instances.lookup ⟨name, arguments⟩ = none)
    {definition : Definition} (declares : symbols.type? name = some definition) :
    instantiateWith symbols deeper name arguments graph =
      if graph.depth ≥ maximalDepth then opaqueNode (graph.referenceText name arguments) graph
      else
        let entered := enterInstance ⟨name, arguments⟩ graph
        let bound := bindParameters symbols deeper [] definition.parameters arguments entered.2
        let body := bodyKind symbols deeper bound.1 entered.1 definition.body bound.2
        (entered.1, (leaveInstance entered.1 body.1 body.2).2) := by
  rw [instantiateWith, get_bind_apply, free]
  dsimp only
  rw [declares]
  dsimp only
  split
  · rfl
  · rfl

theorem valueTypeWith_of_some {deeper : Deeper} {name : String} {graph : Graph} {id : TypeId}
    (found : graph.values.lookup name = some id) :
    valueTypeWith symbols deeper name graph = (id, graph) := by
  rw [valueTypeWith, get_bind_apply, found]
  rfl

theorem valueTypeWith_undeclared {deeper : Deeper} {name : String} {graph : Graph}
    (free : graph.values.lookup name = none) (undeclared : symbols.value? name = none) :
    valueTypeWith symbols deeper name graph = unresolvedType ("typeof " ++ name) graph := by
  rw [valueTypeWith, get_bind_apply, free]
  dsimp only
  rw [undeclared]

theorem valueTypeWith_declared {deeper : Deeper} {name : String} {graph : Graph}
    (free : graph.values.lookup name = none) {type : TypeExpr}
    (declares : symbols.value? name = some type) :
    valueTypeWith symbols deeper name graph =
      if name ∈ graph.resolving then opaqueNode ("typeof " ++ name) graph
      else
        let resolved := resolve symbols deeper [] type
          { graph with resolving := name :: graph.resolving }
        (resolved.1, { resolved.2 with
          resolving := resolved.2.resolving.erase name
          values := (name, resolved.1) :: resolved.2.values }) := by
  rw [valueTypeWith, get_bind_apply, free]
  dsimp only
  rw [declares]
  dsimp only
  split
  · rfl
  · rfl

end Level

end SwiftBindings.TypeGraph
