/-
**Resolution keeps origins.**

Types as written are resolved by steps that lead from traced graphs to traced graphs (`Traces`). Where
the file leaves the names of identifier types to the framework (`Symbols.KeepsIdentifiers`), so are
declared types and values: the node of a declared type is known by its name and its arguments from the
start, and gets a structure in the end that keeps it known by them. So every graph of a run is traced
(`graphAfter_traced`).
-/

import SwiftBindings.Proofs.Reduction.OriginSteps

set_option linter.unusedSectionVars false

namespace SwiftBindings.TypeGraph

open Declared Reduction

/-! ### Types as written -/

/-- The structures that a file gives to the names of identifier types are those of the framework: an
intersection, or another name for one. -/
def Symbols.KeepsIdentifiers (symbols : Symbols) : Prop :=
  ∀ name definition, symbols.type? name = some definition → namesIdentifier name.toList = true →
    (∃ parts, definition.body = .typeAlias (.intersection parts)) ∨
      ∃ argument, definition.body = .typeAlias (.reference "GenericId" [argument])

/-- The structure that a body gives to a declared type has nodes as parts, and one that is known by
its name where an identifier type is declared. -/
def Graph.Fits (graph : Graph) (name : String) (kind : Kind) : Prop :=
  (∀ part ∈ kind.parts, part < graph.nodes.size) ∧
    (namesIdentifier name.toList = true → kind.isNominal = true)

theorem Graph.aliasKind_isNominal {graph : Graph} {id target : TypeId}
    (nominal : (graph.kind target).isNominal = true) :
    (graph.aliasKind id target).isNominal = true := by
  rw [Graph.aliasKind]
  split
  · rfl
  · split
    · rfl
    · exact nominal

theorem Graph.Names.isNominal {graph : Graph} {id : TypeId} {name : String}
    {arguments : List TypeId} (names : graph.Names id name arguments)
    (identifier : namesIdentifier name.toList = true) : (graph.kind id).isNominal = true := by
  obtain ⟨kind, found, nominal⟩ := (names.2 identifier).node
  rw [Graph.kind_of_getElem? found]
  exact nominal identifier

/-- Resolution one level further in leads from traced graphs to traced graphs. -/
structure Deeper.Traces (deeper : Deeper) : Prop where
  instantiate : ∀ name arguments,
    TypeGraph.Traces (fun graph => ∀ id ∈ arguments, id < graph.nodes.size)
      (deeper.instantiate name arguments) fun graph id => graph.RefersTo id name arguments
  valueType : ∀ name, TypeGraph.Traces (fun _ => True) (deeper.valueType name)
    fun graph id => id < graph.nodes.size

section Resolve

variable {symbols : Symbols} {deeper : Deeper} (further : deeper.Traces) (scope : Scope)

/-- All types that parameters stand for are nodes. -/
def Graph.Binds (graph : Graph) (scope : Scope) : Prop :=
  ∀ entry ∈ scope, entry.2 < graph.nodes.size

instance : Kept fun graph => graph.Binds scope :=
  ⟨fun keeps inside entry member => keeps.lt_size (inside entry member)⟩

include further

theorem traces_namedType (name : String) (arguments : List TypeId) :
    Traces (fun graph => ∀ id ∈ arguments, id < graph.nodes.size)
      (namedType symbols deeper name arguments) fun graph id => graph.Names id name arguments := by
  rw [namedType]
  exact .ite ((further.instantiate name arguments).conclude fun _ _ => Graph.RefersTo.names)
    (traces_providedType name arguments)

theorem traces_queriedType (name : String) :
    Traces (fun _ => True) (queriedType deeper name) fun graph id => id < graph.nodes.size := by
  refine (further.valueType _).bind fun id => .look fun seen traced given => ?_
  cases found : seen.follow? id (segments name).tail with
  | some target => exact .pure fun graph _ same => same ▸ traced.closed.follow_lt given.2 found
  | none => exact traces_opaqueNode _

mutual

/-- **Resolving a type as written keeps origins.** -/
theorem traces_resolve : ∀ type : TypeExpr,
    Traces (fun graph => graph.Binds scope) (resolve symbols deeper scope type)
      fun graph id => id < graph.nodes.size
  | .keyword keyword => by
    rw [resolve]
    exact (traces_keywordType _ keyword).conclude fun _ _ => lt_size_of_getElem?
  | .stringLiteral value => by
    rw [resolve]
    exact (traces_stringLiteralType _ value).conclude fun _ _ => lt_size_of_getElem?
  | .numberLiteral text => by
    rw [resolve]
    exact (traces_leaf rfl fun _ _ _ => .source text (.inr rfl)).conclude
      fun _ _ => lt_size_of_getElem?
  | .booleanLiteral value => by
    rw [resolve]
    have plain : identifierArgument? (if value then "true" else "false") = none := by
      cases value <;> decide
    exact (traces_leaf rfl fun _ _ _ => .plain plain).conclude fun _ _ => lt_size_of_getElem?
  | .reference name arguments => by
    rw [resolve]
    generalize found : (if arguments.isEmpty then scope.lookup name else none) = held
    cases held with
    | some id =>
      refine .pure fun graph _ binds => ?_
      split at found
      · exact binds _ (mem_of_lookup_eq_some found)
      · cases found
    | none =>
      refine .bind (traces_resolveAll arguments) fun ids => ?_
      exact (traces_namedType further name ids).imp (fun _ given => given.2) fun _ _ names => names.1
  | .array element => by
    rw [resolve]
    exact .bind (traces_resolve element) fun _ => traces_arrayType.imp (fun _ given => given.2)
      fun _ _ => Graph.Stands.lt_size
  | .tuple elements => by
    rw [resolve]
    exact .bind (traces_resolveAll elements) fun _ => traces_tupleType.weaken fun _ given => given.2
  | .union members => by
    rw [resolve]
    exact .bind (traces_resolveAlternatives members) fun _ => traces_unionType.imp
      (fun _ given => given.2) fun _ _ ⟨_, found, _⟩ => lt_size_of_getElem? found
  | .intersection members => by
    rw [resolve]
    exact .bind (traces_resolveAll members) fun _ => traces_intersectionType.imp
      (fun _ given => given.2) fun _ _ ⟨_, found⟩ => lt_size_of_getElem? found
  | .object members => by
    rw [resolve]
    have start : Traces (fun graph => graph.Binds scope)
        (resolveMembers symbols deeper scope ⟨[], none⟩ members) _ :=
      (traces_resolveMembers ⟨[], none⟩ members).weaken fun _ binds =>
        ⟨binds, fun part member => by cases member⟩
    exact start.bind fun _ => traces_objectType.imp (fun _ given => given.2)
      fun _ _ => Graph.Stands.lt_size
  | .query name => by
    rw [resolve]
    exact (traces_queriedType further name).weaken fun _ _ => trivial
  | .opaqueText text => by
    rw [resolve]
    exact traces_opaqueNode text

theorem traces_resolveAll : ∀ types : List TypeExpr,
    Traces (fun graph => graph.Binds scope) (resolveAll symbols deeper scope types)
      fun graph ids => ∀ id ∈ ids, id < graph.nodes.size
  | [] => by
    rw [resolveAll]
    exact .pure fun _ _ _ id member => by cases member
  | type :: rest => by
    rw [resolveAll]
    refine .bind (traces_resolve type) fun id => ?_
    refine .bind ((traces_resolveAll rest).weaken fun _ given => given.1) fun ids => ?_
    exact .pure fun _ _ given => List.forall_mem_cons.mpr ⟨given.1.2, given.2⟩

theorem traces_resolveAlternatives : ∀ types : List TypeExpr,
    Traces (fun graph => graph.Binds scope) (resolveAlternatives symbols deeper scope types)
      fun graph ids => ∀ id ∈ ids, id < graph.nodes.size
  | [] => by
    rw [resolveAlternatives]
    exact .pure fun _ _ _ id member => by cases member
  | type :: rest => by
    rw [resolveAlternatives]
    refine .bind (traces_resolve type) fun id => .look fun seen traced given => ?_
    have own := traced.closed.alternative_lt given.2
    refine .using (fun graph => graph.Binds scope ∧
      ∀ alternative ∈ seen.alternatives id, alternative < graph.nodes.size) ⟨given.1, own⟩ ?_
    refine .bind ((traces_resolveAlternatives rest).weaken fun _ given => given.1) fun ids => ?_
    exact .pure fun _ _ given => List.forall_mem_append.mpr ⟨given.1.2, given.2⟩

theorem traces_resolveMembers : ∀ (shape : ObjectShape) (members : List Member),
    Traces (fun graph => graph.Binds scope ∧ ∀ part ∈ (Kind.object shape).parts,
        part < graph.nodes.size) (resolveMembers symbols deeper scope shape members)
      fun graph result => ∀ part ∈ (Kind.object result).parts, part < graph.nodes.size
  | shape, [] => by
    rw [resolveMembers]
    exact .pure fun _ _ given => given.2
  | shape, .property name optional type :: rest => by
    rw [resolveMembers]
    refine .bind ((traces_resolve type).weaken fun _ given => given.1) fun id => ?_
    refine (traces_resolveMembers _ rest).weaken fun graph given => ⟨given.1.1, ?_⟩
    obtain ⟨properties, index⟩ := forall_mem_parts_object.mp given.1.2
    exact forall_mem_parts_object.mpr ⟨forall_mem_upsertProperty properties given.2, index⟩
  | shape, .index key value :: rest => by
    rw [resolveMembers]
    refine .bind ((traces_resolve key).weaken fun _ given => given.1) fun keyId => ?_
    refine .bind ((traces_resolve value).weaken fun _ given => given.1.1) fun valueId => ?_
    refine .look fun seen traced given => ?_
    refine .using (fun graph => graph.Binds scope ∧ ∀ part ∈ (Kind.object
      (shape.indexed (seen.kind keyId) valueId)).parts, part < graph.nodes.size) ⟨given.1.1.1, ?_⟩
      (traces_resolveMembers _ rest)
    obtain ⟨properties, index⟩ := forall_mem_parts_object.mp given.1.1.2
    rw [ObjectShape.indexed]
    split
    · refine forall_mem_parts_object.mpr ⟨properties, fun value found => ?_⟩
      cases found
      exact given.2
    · exact given.1.1.2

end

theorem traces_resolveBases (shape : ObjectShape) (bases : List TypeExpr) :
    Traces (fun graph => graph.Binds scope ∧ ∀ part ∈ (Kind.object shape).parts,
        part < graph.nodes.size) (resolveBases symbols deeper scope shape bases)
      fun graph result => ∀ part ∈ (Kind.object result).parts, part < graph.nodes.size := by
  induction bases generalizing shape with
  | nil => exact .pure fun _ _ given => given.2
  | cons base rest ih =>
    rw [resolveBases]
    refine .bind ((traces_resolve further scope base).weaken fun _ given => given.1) fun id => ?_
    refine .look fun seen traced given => .using (fun graph => graph.Binds scope ∧
      ∀ part ∈ (Kind.object _).parts, part < graph.nodes.size) ⟨given.1.1, ?_⟩ (ih _)
    obtain ⟨properties, index⟩ := forall_mem_parts_object.mp given.1.2
    refine forall_mem_parts_object.mpr
      ⟨forall_mem_foldl_upsertProperty properties (traced.closed.property_lt id), fun value found => ?_⟩
    rcases Option.or_eq_some_iff.mp found with own | ⟨_, inherited⟩
    · exact index value own
    · exact traced.closed.index_lt id value inherited

theorem traces_bindParameters (parameters : List Parameter) (arguments : List TypeId) :
    Traces (fun graph => graph.Binds scope ∧ ∀ id ∈ arguments, id < graph.nodes.size)
      (bindParameters symbols deeper scope parameters arguments) Graph.Binds := by
  induction parameters generalizing scope arguments with
  | nil => exact .pure fun _ _ given => given.1
  | cons parameter rest ih =>
    cases arguments with
    | cons argument others =>
      refine (ih _ others).weaken fun graph given =>
        ⟨List.forall_mem_cons.mpr ⟨given.2 argument List.mem_cons_self, given.1⟩,
          fun id member => given.2 id (List.mem_cons_of_mem _ member)⟩
    | nil =>
      rw [bindParameters]
      cases parameter.fallback with
      | some fallback =>
        refine .bind ((traces_resolve further scope fallback).weaken fun _ given => given.1)
          fun argument => (ih ((parameter.name, argument) :: scope) []).weaken fun graph given => ?_
        exact ⟨List.forall_mem_cons.mpr ⟨given.2, given.1.1⟩, given.1.2⟩
      | none =>
        refine .bind (traces_keywordType _ .unknown) fun argument =>
          (ih ((parameter.name, argument) :: scope) []).weaken fun graph given => ?_
        exact ⟨List.forall_mem_cons.mpr ⟨lt_size_of_getElem? given.2, given.1.1⟩, given.1.2⟩

/-- A reference with arguments to a name is resolved to what stands for the name. -/
theorem traces_reference (name : String) (argument : TypeExpr) :
    Traces (fun graph => graph.Binds scope)
      (resolve symbols deeper scope (.reference name [argument]))
      fun graph id => ∃ arguments, graph.Names id name arguments := by
  rw [resolve]
  refine .bind (traces_resolveAll further scope [argument]) fun ids => ?_
  exact (traces_namedType further name ids).imp (fun _ given => given.2) fun _ _ names => ⟨_, names⟩

/-! ### Declared types and values -/

theorem traces_bodyKind (keeps : symbols.KeepsIdentifiers) {name : String} {definition : Definition}
    (declares : symbols.type? name = some definition) (id : TypeId) :
    Traces (fun graph => graph.Binds scope) (bodyKind symbols deeper scope id definition.body)
      fun graph kind => graph.Fits name kind := by
  cases body : definition.body with
  | interface bases members =>
    have noIdentifier : namesIdentifier name.toList = false := by
      by_contra named
      rw [Bool.not_eq_false] at named
      rcases keeps name definition declares named with ⟨_, same⟩ | ⟨_, same⟩
      · cases body.symm.trans same
      · cases body.symm.trans same
    rw [bodyKind]
    have empty : ∀ graph : Graph, ∀ part ∈ (Kind.object ⟨[], none⟩).parts, part < graph.nodes.size :=
      fun graph part member => by cases member
    refine .bind ((traces_resolveBases further scope _ bases).weaken
      fun graph binds => ⟨binds, empty graph⟩) fun inherited => ?_
    refine .bind ((traces_resolveMembers further scope _ members).weaken
      fun graph given => ⟨given.1, empty graph⟩) fun own => .pure fun graph _ given => ?_
    refine ⟨?_, fun named => absurd (noIdentifier.symm.trans named) Bool.false_ne_true⟩
    obtain ⟨properties, index⟩ := forall_mem_parts_object.mp given.1.2
    obtain ⟨properties', index'⟩ := forall_mem_parts_object.mp given.2
    refine forall_mem_parts_object.mpr
      ⟨forall_mem_foldl_upsertProperty properties properties', fun value found => ?_⟩
    rcases Option.or_eq_some_iff.mp found with own | ⟨_, inherited⟩
    · exact index' value own
    · exact index value inherited
  | typeAlias type =>
    have target : Traces (fun graph => graph.Binds scope) (resolve symbols deeper scope type)
        fun graph id => namesIdentifier name.toList = true → (graph.kind id).isNominal = true := by
      cases named : namesIdentifier name.toList with
      | false => exact (traces_resolve further scope type).conclude fun _ _ _ same => by cases same
      | true =>
        rcases keeps name definition declares named with ⟨parts, same⟩ | ⟨argument, same⟩
        · cases body.symm.trans same
          rw [resolve]
          refine .bind (traces_resolveAll further scope parts) fun ids =>
            traces_intersectionType.imp (fun _ given => given.2) fun graph id stored _ => ?_
          obtain ⟨_, found⟩ := stored
          rw [Graph.kind_of_getElem? found]
          rfl
        · cases body.symm.trans same
          refine (traces_reference further scope "GenericId" argument).conclude
            fun graph id reference _ => ?_
          obtain ⟨_, names⟩ := reference
          exact names.isNominal (by decide)
    rw [bodyKind]
    intro graph traced binds
    obtain ⟨traced, extended, nominal⟩ := target graph traced binds
    exact ⟨traced, extended, traced.closed.aliasKind_parts id _,
      fun named => Graph.aliasKind_isNominal (nominal named)⟩

end Resolve

/-! ### Entering and leaving a declared type -/

section Instance

variable {graph after : Graph} {name : String} {arguments : List TypeId}

/-- A graph stays traced when a declared type is entered. -/
theorem Graph.Traced.enter (traced : graph.Traced) (name : String)
    (inside : ∀ argument ∈ arguments, argument < graph.nodes.size) :
    let entered := (enterInstance ⟨name, arguments⟩ graph).2
    entered.Traced ∧ graph.Extends entered ∧ entered.RefersTo graph.nodes.size name arguments := by
  obtain ⟨pushed, extended, refers⟩ :=
    traces_named .pending name arguments inside (fun _ => rfl) graph traced rfl
  refine ⟨pushed.remember rfl pushed.keywords pushed.literals ?_ pushed.values,
    ⟨extended.nodes, ?_⟩, refers.inside, refers.node⟩
  · intro declared id found
    rw [enterInstance_eq] at found
    rcases lookup_cons_cases found with ⟨rfl, rfl⟩ | before
    · exact refers
    · exact pushed.instances declared id before
  · intro declared id found
    rw [enterInstance_eq] at found
    rcases lookup_cons_cases found with ⟨-, rfl⟩ | before
    · exact .inr (Nat.le_refl _)
    · exact .inl before

theorem keepsTexts_leaveInstance (id : TypeId) (kind : Kind) (graph : Graph) :
    graph.KeepsTexts (leaveInstance id kind graph).2 where
  size := by
    rw [leaveInstance_eq]
    show _ ≤ (graph.nodes.modify id _).size
    rw [Array.size_modify]
  text other _ := by
    rw [Graph.text, leaveInstance_eq]
    show ((graph.nodes.modify id _)[other]?.map Node.text).getD "" = _
    rw [Array.getElem?_modify, Graph.text]
    split
    · cases graph.nodes[other]? <;> rfl
    · rfl

theorem leaveInstance_node {id : TypeId} {node : Node} (found : graph.nodes[id]? = some node)
    (kind : Kind) : (leaveInstance id kind graph).2.nodes[id]? = some { node with kind } := by
  rw [leaveInstance_eq]
  show (graph.nodes.modify id _)[id]? = _
  rw [Array.getElem?_modify, if_pos rfl, found]
  rfl

/-- A graph stays traced when the node of a declared type gets its structure. -/
theorem Graph.Traced.leave (traced : after.Traced) {id : TypeId} {kind : Kind}
    (unfinished : after.HasKind id .pending) (refers : after.RefersTo id name arguments)
    (only : ∀ other, after.instances.lookup other = some id → other = ⟨name, arguments⟩)
    (fits : after.Fits name kind) :
    (leaveInstance id kind after).2.Traced ∧
      (leaveInstance id kind after).2.RefersTo id name arguments := by
  have keeps := keepsTexts_leaveInstance id kind after
  have continues : after.Continues (leaveInstance id kind after).2 :=
    leaveInstance_continues unfinished
  have lt_size : ∀ {other : TypeId}, other < after.nodes.size →
      other < (leaveInstance id kind after).2.nodes.size :=
    fun inside => Nat.lt_of_lt_of_le inside keeps.size
  obtain ⟨_, found, _⟩ := refers.node
  have changed := leaveInstance_node found kind
  have own : (leaveInstance id kind after).2.RefersTo id name arguments := by
    refine ⟨fun argument member => lt_size (refers.inside argument member), kind, ?_, fits.2⟩
    rw [keeps.referenceText_eq name refers.inside]
    exact changed
  -- The node of the declared type is told apart, every other node is one of before.
  have node_cases : ∀ (other : TypeId) (node : Node),
      (leaveInstance id kind after).2.nodes[other]? = some node →
        after.nodes[other]? = some node ∨ node = ⟨kind, after.referenceText name arguments⟩ := by
    intro other node held
    by_cases same : other = id
    · subst same
      exact .inr (Option.some.inj (held.symm.trans changed))
    · rw [leaveInstance_node_of_ne same] at held
      exact .inl held
  refine ⟨⟨lt_size traced.method, ?_, ?_, ?_, ?_, ?_, ?_⟩, own⟩
  · intro other node held part member
    rcases node_cases other node held with before | rfl
    · exact lt_size (traced.parts other node before part member)
    · exact lt_size (fits.1 part member)
  · intro other node held
    rcases node_cases other node held with before | rfl
    · exact (traced.origins other node before).keep keeps (traced.parts other node before)
    · exact Graph.Origin.keep keeps (.reference refers.inside fits.2) fits.1
  · intro keyword other held
    exact continues.nodes _ _ (traced.keywords keyword other held) Kind.noConfusion
  · intro value other held
    exact continues.nodes _ _ (traced.literals value other held) Kind.noConfusion
  · intro declared other held
    by_cases same : other = id
    · subst same
      rw [only declared held]
      exact own
    · have before := traced.instances declared other held
      obtain ⟨kind', there, nominal⟩ := before.node
      refine ⟨fun argument member => lt_size (before.inside argument member), kind', ?_, nominal⟩
      rw [keeps.referenceText_eq _ before.inside, leaveInstance_node_of_ne same]
      exact there
  · intro value other held
    exact lt_size (traced.values value other held)

/-- The place of a declared type that is being resolved is that of no other. -/
theorem only_instance (traced : graph.Traced)
    (extended : (enterInstance ⟨name, arguments⟩ graph).2.Extends after) (other : Instance)
    (found : after.instances.lookup other = some graph.nodes.size) : other = ⟨name, arguments⟩ := by
  rcases extended.fresh other _ found with before | new
  · rw [enterInstance_eq] at before
    rcases lookup_cons_cases before with ⟨same, -⟩ | before
    · exact same
    · exact absurd (traced.instances other _ before).lt_size (Nat.lt_irrefl _)
  · rw [enterInstance_eq] at new
    have pushed : (graph.nodes.push ⟨.pending, _⟩).size ≤ graph.nodes.size := new
    rw [Array.size_push] at pushed
    exact absurd pushed (Nat.not_succ_le_self _)

end Instance

/-! ### One level further in -/

section Level

variable {symbols : Symbols} {deeper : Deeper} (keeps : symbols.KeepsIdentifiers)
  (further : deeper.Traces)

include keeps further

/-- **Resolving a declared type keeps origins.** -/
theorem traces_instantiateWith (name : String) (arguments : List TypeId) :
    Traces (fun graph => ∀ id ∈ arguments, id < graph.nodes.size)
      (instantiateWith symbols deeper name arguments)
      fun graph id => graph.RefersTo id name arguments := by
  intro graph traced inside
  cases free : graph.instances.lookup ⟨name, arguments⟩ with
  | some id =>
    rw [instantiateWith_of_some free]
    exact ⟨traced, .refl graph, traced.instances ⟨name, arguments⟩ id free⟩
  | none =>
    cases declares : symbols.type? name with
    | none =>
      rw [instantiateWith_undeclared free declares]
      exact traces_named .unresolved name arguments inside (fun _ => rfl) graph traced rfl
    | some definition =>
      rw [instantiateWith_declared free declares]
      split
      · exact traces_named .opaqueType name arguments inside (fun _ => rfl) graph traced rfl
      · obtain ⟨entered, extended, refers⟩ := traced.enter name inside
        have pending : (enterInstance ⟨name, arguments⟩ graph).2.HasKind graph.nodes.size .pending :=
          enterInstance_hasKind _
        obtain ⟨bound, first, binds⟩ := traces_bindParameters further [] definition.parameters
          arguments (enterInstance ⟨name, arguments⟩ graph).2 entered
          ⟨fun _ member => absurd member List.not_mem_nil, refers.inside⟩
        obtain ⟨after, second, fits⟩ := traces_bodyKind further _ keeps declares
          (enterInstance ⟨name, arguments⟩ graph).1 _ bound binds
        have path := first.trans second
        obtain ⟨text, found⟩ := pending
        have only := only_instance traced path
        obtain ⟨left, own⟩ := after.leave ⟨text, path.nodes _ _ found⟩ (refers.keep path.nodes) only
          fits
        refine ⟨left, ⟨fun id node held => ?_, fun declared id held => ?_⟩, own⟩
        · have different : id ≠ graph.nodes.size := Nat.ne_of_lt (lt_size_of_getElem? held)
          exact (leaveInstance_node_of_ne different).trans
            (path.nodes id node (extended.nodes id node held))
        · exact (extended.trans path).fresh declared id held

omit keeps in
theorem traces_valueTypeWith (name : String) :
    Traces (fun _ => True) (valueTypeWith symbols deeper name) fun graph id =>
      id < graph.nodes.size := by
  intro graph traced _
  cases free : graph.values.lookup name with
  | some id =>
    rw [valueTypeWith_of_some free]
    exact ⟨traced, .refl graph, traced.values name id free⟩
  | none =>
    cases declares : symbols.value? name with
    | none =>
      rw [valueTypeWith_undeclared free declares]
      have unresolved : Traces (fun _ => True) (unresolvedType ("typeof " ++ name)) fun graph id =>
          graph.nodes[id]? = some ⟨.unresolved, "typeof " ++ name⟩ :=
        traces_leaf rfl fun _ _ _ => .plain (identifierArgument?_typeof name)
      exact unresolved.conclude (fun _ _ => lt_size_of_getElem?) graph traced trivial
    | some type =>
      rw [valueTypeWith_declared free declares]
      split
      · have asked : Traces (fun _ => True) (opaqueNode ("typeof " ++ name)) _ :=
          traces_opaqueNode _
        exact asked graph traced trivial
      · have start : { graph with resolving := name :: graph.resolving }.Traced :=
          traced.remember rfl traced.keywords traced.literals traced.instances traced.values
        obtain ⟨after, extended, inside⟩ := traces_resolve further [] type _ start
          fun entry member => by cases member
        refine ⟨after.remember rfl after.keywords after.literals after.instances ?_,
          ⟨extended.nodes, extended.fresh⟩, inside⟩
        intro other id held
        rcases lookup_cons_cases held with ⟨-, rfl⟩ | before
        · exact inside
        · exact after.values other id before

end Level

/-- **All of resolution keeps origins**, with any number of levels left. -/
theorem Deeper.traces_ofLevels {symbols : Symbols} (keeps : symbols.KeepsIdentifiers)
    (levels : Nat) : (Deeper.ofLevels symbols levels).Traces := by
  induction levels with
  | zero =>
    refine ⟨fun name arguments => .look fun _ _ inside => ?_, fun name => traces_opaqueNode _⟩
    exact traces_named .opaqueType name arguments inside fun _ => rfl
  | succ levels ih =>
    exact ⟨traces_instantiateWith keeps ih, traces_valueTypeWith ih⟩

/-! ### Files that leave identifier types to the framework -/

/-- The name that a declaration gives to a type. -/
def declaredTypeName? : Item → Option String
  | .typeAlias name _ _ _ => some name
  | .interface name _ _ _ _ => some name
  | _ => none

/-- A declaration changes what its own name stands for. -/
theorem Symbols.type?_declare (tracked : Bool) (symbols : Symbols) {item : Item} {name : String}
    (other : declaredTypeName? item ≠ some name) :
    (symbols.declare tracked item).type? name = symbols.type? name := by
  cases item with
  | typeAlias own parameters type exported =>
    exact lookup_cons_of_ne _ fun same => other (congrArg some same.symm)
  | interface own parameters bases members exported =>
    exact lookup_cons_of_ne _ fun same => other (congrArg some same.symm)
  | value own type exported => rfl
  | exports names => rfl

/-- A name that a file does not declare stands for what the framework gives it. -/
theorem Symbols.type?_ofItems {items : List Item} {name : String}
    (free : ∀ item ∈ items, declaredTypeName? item ≠ some name) :
    (Symbols.ofItems items).type? name = (Symbols.ofItems []).type? name := by
  have general : ∀ symbols : Symbols,
      (items.foldl (Symbols.declare true) symbols).type? name = symbols.type? name := by
    induction items with
    | nil => exact fun _ => rfl
    | cons item rest ih =>
      intro symbols
      rw [List.foldl_cons, ih fun other member => free other (List.mem_cons_of_mem _ member)]
      exact symbols.type?_declare true (free item List.mem_cons_self)
  exact general _

/-- **A file that declares no type under the name of an identifier type leaves them to the
framework.** -/
theorem Symbols.keepsIdentifiers_ofItems {items : List Item}
    (free : ∀ item ∈ items, ∀ name, declaredTypeName? item = some name →
      namesIdentifier name.toList = false) : (Symbols.ofItems items).KeepsIdentifiers := by
  intro name definition declares named
  rw [Symbols.type?_ofItems fun item member same =>
    absurd (named.symm.trans (free item member name same)) Bool.noConfusion] at declares
  have provided : (name, definition) ∈ (Symbols.ofItems []).types := mem_of_lookup_eq_some declares
  rcases provided with _ | ⟨_, provided⟩
  · exact .inr ⟨_, rfl⟩
  rcases provided with _ | ⟨_, provided⟩
  · exact .inl ⟨_, rfl⟩
  have others : ∀ other ∈ ["FunctionReference", "FunctionVisibility", "FunctionType"],
      namesIdentifier other.toList = false := by decide
  have listed : name ∈ ["FunctionReference", "FunctionVisibility", "FunctionType"] :=
    List.mem_map_of_mem (f := Prod.fst) provided
  exact absurd (named.symm.trans (others name listed)) Bool.noConfusion

/-! ### Runs -/

section Runs

variable {symbols : Symbols} (keeps : symbols.KeepsIdentifiers)

include keeps

theorem traces_exportType? (name : String) :
    Traces (fun _ => True) (exportType? symbols name) fun graph found =>
      ∀ id ∈ found, id < graph.nodes.size := by
  rw [exportType?]
  cases symbols.exportedValue? name with
  | none => exact .pure fun _ _ _ id found => by cases found
  | some localName =>
    refine .bind ((Deeper.traces_ofLevels keeps symbols.levels).valueType localName) fun id => ?_
    exact .pure fun _ _ given other found => by cases found; exact given.2

/-- **Every graph of a run is traced.** -/
theorem graphAfter_traced (names : List String) {graph : Graph} (traced : graph.Traced) :
    (graphAfter symbols names graph).Traced := by
  induction names generalizing graph with
  | nil => exact traced
  | cons name rest ih => exact ih (traces_exportType? keeps name graph traced trivial).1

end Runs

end SwiftBindings.TypeGraph
