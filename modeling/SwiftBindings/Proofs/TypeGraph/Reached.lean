/-
**The graphs that a run passes through.**

Resolution changes a graph in small steps: a node is added, a keyword or a literal is asked for, a
declared type gets its node and later its structure, a value is entered and later remembered. A graph is
reached (`Reached`) when such steps lead to it from the first graph of a run. Reached graphs include the
ones in the middle of a resolution, where declared types are unfinished.

`Proceeds given step` says of a step that it leads from reached graphs with the given places to reached
graphs. All of resolution consists of such steps (`Deeper.proceeds_ofLevels`), so the graphs after exports
are reached (`reached_graphAfter`), and what the small steps keep holds of all of them.

A union takes in the alternatives of its members. What it takes in is then no union itself, unless it
stands in a union already (`Graph.MayJoin`).
-/

import SwiftBindings.Proofs.TypeGraph.DeclaredProperties
import SwiftBindings.Proofs.TypeGraph.Places

set_option linter.unusedSectionVars false

namespace SwiftBindings.TypeGraph

open Declared

/-! ### Alternatives of unions -/

/-- The type is an alternative of some union. -/
def Graph.IsAlternative (graph : Graph) (id : TypeId) : Prop :=
  ∃ union members, graph.kind union = .union members ∧ id ∈ members

/-- The type may become an alternative: it is no union, or it is an alternative already. -/
def Graph.MayJoin (graph : Graph) (id : TypeId) : Prop :=
  ∀ members, graph.kind id = .union members → graph.IsAlternative id

section Alternatives

variable {graph after : Graph}

/-- Alternatives stay alternatives. -/
theorem Graph.IsAlternative.later {id : TypeId} (alternative : graph.IsAlternative id)
    (continues : graph.Continues after) : after.IsAlternative id := by
  obtain ⟨union, members, kind, member⟩ := alternative
  have has := Graph.hasKind_of_kind kind Kind.noConfusion
  exact ⟨union, members, (continues.hasKind has Kind.noConfusion).kind_eq, member⟩

/-- What may join a union may do so after a step. -/
theorem Graph.MayJoin.later {id : TypeId} (joins : graph.MayJoin id) (inside : id < graph.nodes.size)
    (grows : graph.GrowsTo after) : after.MayJoin id := by
  intro members kind
  have node : graph.nodes[id]? = some graph.nodes[id] := Array.getElem?_eq_getElem inside
  have same : after.kind id = graph.kind id := by
    rw [Graph.kind, Graph.kind, grows.nodes id _ node, node]
  exact (joins members (same.symm.trans kind)).later grows.continues

/-- What a member brings into a union may join it. -/
theorem Graph.mayJoin_alternatives (graph : Graph) (id : TypeId) :
    ∀ alternative ∈ graph.alternatives id, graph.MayJoin alternative := by
  intro alternative member
  rw [Graph.alternatives] at member
  cases found : graph.unionMembers? id with
  | none =>
    rw [found, Option.getD_none, List.mem_singleton] at member
    subst member
    intro members kind
    rw [Graph.unionMembers?, kind] at found
    cases found
  | some members =>
    rw [found, Option.getD_some] at member
    exact fun _ _ => ⟨id, members, Graph.kind_eq_union found, member⟩

end Alternatives

/-! ### Reached graphs -/

/-- Small steps of resolution lead to the graph. -/
inductive Reached (symbols : Symbols) : Graph → Prop where
  /-- The first graph of every run. -/
  | initial : Reached symbols .initial
  /-- A node is added. -/
  | add {graph : Graph} {kind : Kind} (before : Reached symbols graph) (known : kind ≠ .pending)
    (parts : graph.Holds kind.parts)
    (joins : ∀ members, kind = .union members → ∀ member ∈ members, graph.MayJoin member)
    (text : String) : Reached symbols (allocate kind text graph).2
  /-- A keyword is asked for. -/
  | keyword {graph : Graph} (before : Reached symbols graph) (keyword : Keyword) :
    Reached symbols (keywordType keyword graph).2
  /-- A string literal is asked for. -/
  | literal {graph : Graph} (before : Reached symbols graph) (value : String) :
    Reached symbols (stringLiteralType value graph).2
  /-- A declared type that is asked for for the first time gets its node. -/
  | enter {graph : Graph} {declared : Instance} (before : Reached symbols graph)
    (free : graph.instances.lookup declared = none) (inside : graph.Holds declared.arguments) :
    Reached symbols (enterInstance declared graph).2
  /-- Its body is resolved, and it gets its structure. -/
  | leave {graph : Graph} {declared : Instance} {id : TypeId}
    {run : InstanceRun symbols .none declared id} (starts : run.StartsIn graph)
    (before : Reached symbols graph) (free : graph.instances.lookup declared = none)
    (within : Reached symbols run.body.2) (parts : run.body.2.Holds run.body.1.parts) :
    Reached symbols run.after
  /-- A value is asked for. -/
  | start {graph : Graph} (before : Reached symbols graph) (name : String) :
    Reached symbols { graph with resolving := name :: graph.resolving }
  /-- Its type is resolved. -/
  | finish {graph : Graph} {name : String} {id : TypeId} (before : Reached symbols graph)
    (free : graph.values.lookup name = none) (inside : id < graph.nodes.size) :
    Reached symbols (graph.leaveValue name id)

/-- All places in a reached graph have nodes. -/
theorem Reached.grounded {symbols : Symbols} {graph : Graph} (reached : Reached symbols graph) :
    graph.Grounded := by
  have none : ∀ {graph : Graph}, graph.Holds [] := fun _ member => absurd member List.not_mem_nil
  induction reached with
  | initial => exact Graph.grounded_initial
  | add _ _ parts _ text ih => exact ih.push parts text
  | keyword _ keyword ih => exact (grounds_keywordType keyword _ ih none).1
  | literal _ value ih => exact (grounds_stringLiteralType value _ ih none).1
  | enter _ _ inside ih => exact ih.enter inside
  | leave _ _ _ _ parts _ ih => exact ih.leave parts _
  | start _ name ih => exact ih.remember rfl fun _ member => .inl member
  | finish _ _ inside ih =>
    refine ih.remember rfl fun place member => ?_
    rcases Graph.mem_remembered.mp member with keyword | literal | declared | ⟨entry, held, rfl⟩
    · exact .inl (Graph.mem_remembered.mpr (.inl keyword))
    · exact .inl (Graph.mem_remembered.mpr (.inr (.inl literal)))
    · exact .inl (Graph.mem_remembered.mpr (.inr (.inr (.inl declared))))
    · rcases List.mem_cons.mp held with rfl | before
      · exact .inr inside
      · exact .inl (Graph.mem_remembered.mpr (.inr (.inr (.inr ⟨entry, before, rfl⟩))))

/-! ### Steps -/

/-- Where there is room for it, the step leads from reached graphs with the given places to reached
graphs, and grows them. -/
def Proceeds (symbols : Symbols) (levels : Nat) (given : List TypeId) {α : Type}
    (step : Building α) : Prop :=
  ∀ graph, Reached symbols graph → graph.Holds given → symbols.room graph < levels →
    graph.GrowsTo (step graph).2 ∧ Reached symbols (step graph).2

section Proceeds

variable {symbols : Symbols} {levels : Nat} {given more : List TypeId} {α β : Type}
  {step : Building α} {found : α → List TypeId}

theorem Proceeds.pure (value : α) : Proceeds symbols levels given (pure value : Building α) :=
  fun graph reached _ _ => ⟨.refl graph, reached⟩

theorem Proceeds.weaken (proceeds : Proceeds symbols levels given step) (among : given ⊆ more) :
    Proceeds symbols levels more step :=
  fun graph reached holds => proceeds graph reached (holds.subset among)

/-- **Steps that follow each other are composed.** The second one has the places that the first one
finds. -/
theorem Proceeds.bind {rest : α → Building β} (first : Proceeds symbols levels given step)
    (grounds : Grounds given step found)
    (second : ∀ value, Proceeds symbols levels (given ++ found value) (rest value)) :
    Proceeds symbols levels given (step >>= rest) := by
  intro graph reached holds enough
  obtain ⟨grows, between⟩ := first graph reached holds enough
  have finds := (grounds graph reached.grounded holds).2.2
  have still : symbols.room (step graph).2 < levels := by
    rw [grows.room_eq]
    exact enough
  obtain ⟨further, after⟩ := second (step graph).1 (step graph).2 between
    ((holds.keep grows.size_le).append finds) still
  exact ⟨grows.trans further, after⟩

/-- A step that is followed by one that needs nothing of what it finds. -/
theorem Proceeds.andThen {rest : α → Building β} (first : Proceeds symbols levels given step)
    (second : ∀ value, Proceeds symbols levels given (rest value)) :
    Proceeds symbols levels given (step >>= rest) := by
  intro graph reached holds enough
  obtain ⟨grows, between⟩ := first graph reached holds enough
  have still : symbols.room (step graph).2 < levels := by
    rw [grows.room_eq]
    exact enough
  obtain ⟨further, after⟩ := second (step graph).1 (step graph).2 between
    (holds.keep grows.size_le) still
  exact ⟨grows.trans further, after⟩

/-- A step that reads the graph goes on with places that have nodes there. -/
theorem Proceeds.look {rest : Graph → Building β}
    (proceeds : ∀ seen : Graph, seen.Grounded → seen.Holds given →
      ∃ read, seen.Holds read ∧ Proceeds symbols levels read (rest seen)) :
    Proceeds symbols levels given (get >>= rest) := by
  intro graph reached holds enough
  obtain ⟨read, held, goes⟩ := proceeds graph reached.grounded holds
  exact goes graph reached held enough

/-- A new node that is no union. -/
theorem proceeds_allocate {kind : Kind} (known : kind ≠ .pending)
    (other : ∀ members, kind ≠ .union members) (inside : kind.parts ⊆ given) (text : String) :
    Proceeds symbols levels given (allocate kind text) :=
  fun graph reached holds _ => ⟨allocate_grows known text graph,
    reached.add known (holds.subset inside) (fun members same => absurd same (other members)) text⟩

/-- A new node whose text is put together from the graph. -/
theorem proceeds_built (kind : Kind) (known : kind ≠ .pending)
    (other : ∀ members, kind ≠ .union members) (inside : kind.parts ⊆ given)
    (text : Graph → String) :
    Proceeds symbols levels given (get >>= fun seen => allocate kind (text seen)) :=
  fun graph => proceeds_allocate known other inside (text graph) graph

theorem proceeds_unresolvedType (text : String) :
    Proceeds symbols levels given (unresolvedType text) :=
  proceeds_allocate Kind.noConfusion (fun _ => Kind.noConfusion) (List.nil_subset _) text

theorem proceeds_opaqueNode (text : String) : Proceeds symbols levels given (opaqueNode text) :=
  proceeds_allocate Kind.noConfusion (fun _ => Kind.noConfusion) (List.nil_subset _) text

theorem proceeds_keywordType (keyword : Keyword) :
    Proceeds symbols levels given (keywordType keyword) := by
  intro graph reached _ enough
  have keeps : Keeps symbols .none levels .pass (keywordType keyword) := keeps_keywordType keyword
  exact ⟨(keeps graph enough rfl).grows, reached.keyword keyword⟩

theorem proceeds_stringLiteralType (value : String) :
    Proceeds symbols levels given (stringLiteralType value) := by
  intro graph reached _ enough
  have keeps : Keeps symbols .none levels .pass (stringLiteralType value) :=
    keeps_stringLiteralType value
  exact ⟨(keeps graph enough rfl).grows, reached.literal value⟩

/-- A union of what may join it. -/
theorem Reached.union {graph : Graph} (reached : Reached symbols graph) {members : List TypeId}
    (inside : graph.Holds members) (joins : ∀ member ∈ members, graph.MayJoin member) :
    graph.GrowsTo (unionType members graph).2 ∧ Reached symbols (unionType members graph).2 := by
  have known : Kind.union members ≠ .pending := Kind.noConfusion
  exact ⟨allocate_grows known _ graph,
    reached.add known inside (fun _ same => Kind.union.inj same ▸ joins) _⟩

/-! ### Types of the framework -/

theorem proceeds_arrayType {element : TypeId} (inside : element ∈ given) :
    Proceeds symbols levels given (arrayType element) :=
  proceeds_built (.array element) Kind.noConfusion (fun _ => Kind.noConfusion)
    (List.cons_subset.mpr ⟨inside, List.nil_subset _⟩) _

theorem proceeds_recordType {key value : TypeId} (inside : value ∈ given) :
    Proceeds symbols levels given (recordType key value) := by
  intro graph reached holds enough
  rw [recordType_run]
  have parts : (Kind.object (recordShape graph key value)).parts ⊆ given :=
    fun part member => eq_of_mem_recordShape member ▸ inside
  exact proceeds_allocate Kind.noConfusion (fun _ => Kind.noConfusion) parts _ graph reached holds enough

theorem proceeds_presenceType (name : String) (change : PresenceChange) (target : TypeId) :
    Proceeds symbols levels given (presenceType name change target) := by
  refine .look fun seen grounded _ => ?_
  let shape : ObjectShape := ⟨(seen.properties target).map change.apply, seen.index? target⟩
  have inside : seen.Holds (Kind.object shape).parts := by
    refine forall_mem_parts_object.mpr ⟨fun property member => ?_, grounded.index_lt target⟩
    obtain ⟨before, held, rfl⟩ := List.mem_map.mp member
    exact grounded.property_lt target before held
  refine ⟨_, inside, ?_⟩
  dsimp only
  split
  · exact proceeds_unresolvedType _
  · exact proceeds_allocate Kind.noConfusion (fun _ => Kind.noConfusion) (List.Subset.refl _) _

/-- What is left of a union without null and undefined was in it. -/
theorem proceeds_nonNullableType (target : TypeId) :
    Proceeds symbols levels given (nonNullableType target) := by
  intro graph reached holds enough
  rw [nonNullableType, get_bind_apply]
  cases members : graph.unionMembers? target with
  | none => exact Proceeds.pure target graph reached holds enough
  | some alternatives =>
    dsimp only
    generalize kept : alternatives.filter _ = left
    have among : left ⊆ alternatives := kept ▸ fun _ member => (List.mem_filter.mp member).1
    split
    · exact Proceeds.pure _ graph reached holds enough
    · refine reached.union (fun member held => ?_) fun member held _ _ => ?_
      · exact reached.grounded.unionMember_lt members member (among held)
      · exact ⟨target, alternatives, Graph.kind_eq_union members, among held⟩

theorem proceeds_objectType {shape : ObjectShape} (inside : (Kind.object shape).parts ⊆ given) :
    Proceeds symbols levels given (objectType shape) :=
  proceeds_built (.object shape) Kind.noConfusion (fun _ => Kind.noConfusion) inside _

theorem proceeds_keepProperties {keep : TypeId → Building (Option TypeId)}
    (proceeds : ∀ id, Proceeds symbols levels [id] (keep id))
    (grounds : ∀ id, Grounds [id] (keep id) Option.toList) (properties : List Property) :
    Proceeds symbols levels (propertyTypes properties) (keepProperties keep properties) := by
  induction properties with
  | nil => exact .pure _
  | cons property rest ih =>
    have own : [property.type] ⊆ propertyTypes (property :: rest) :=
      List.cons_subset_cons _ (List.nil_subset _)
    have others : propertyTypes rest ⊆ propertyTypes (property :: rest) := List.subset_cons_self _ _
    refine ((proceeds property.type).weaken own).bind ((grounds property.type).weaken own) fun kept => ?_
    have further := ih.weaken (List.subset_append_of_subset_left kept.toList others)
    cases kept with
    | none => exact further
    | some type => exact further.andThen fun _ => .pure _

theorem proceeds_filterWithin (wanted : Option String) (walk : Nat) (id : TypeId) :
    Proceeds symbols levels [id] (filterWithin wanted walk id) := by
  induction walk generalizing id with
  | zero => exact .pure _
  | succ walk ih =>
    refine .look fun seen grounded holds => ⟨propertyTypes (seen.properties id), ?_, ?_⟩
    · intro place member
      obtain ⟨property, held, rfl⟩ := List.mem_map.mp member
      exact grounded.property_lt id property held
    split
    · cases wanted with
      | none => exact .pure _
      | some visibility => exact .pure _
    · split
      · exact .pure _
      · have grounds := grounds_filterWithin wanted walk
        refine (proceeds_keepProperties ih grounds _).bind (grounds_keepProperties grounds _) fun kept => ?_
        have parts : (Kind.object ⟨kept, none⟩).parts = propertyTypes kept := List.append_nil _
        split
        · exact .pure _
        · exact (proceeds_objectType (parts ▸ List.subset_append_right _ _)).andThen fun _ => .pure _

theorem proceeds_filteredType {api filter : TypeId} (inside : api ∈ given) :
    Proceeds symbols levels given (filteredType api filter) := by
  refine .look fun seen _ holds => ⟨given, holds, ?_⟩
  have own : [api] ⊆ given := List.cons_subset.mpr ⟨inside, List.nil_subset _⟩
  split
  · refine ((proceeds_filterWithin _ _ api).weaken own).andThen fun kept => ?_
    cases kept with
    | some id => exact .pure id
    | none => exact proceeds_allocate Kind.noConfusion (fun _ => Kind.noConfusion) (List.nil_subset _) _
  · exact proceeds_unresolvedType _

theorem proceeds_providedType (name : String) (arguments : List TypeId) :
    Proceeds symbols levels arguments (providedType name arguments) := by
  have unresolved : Proceeds symbols levels arguments (get >>= fun seen =>
      unresolvedType (seen.referenceText name arguments)) :=
    fun graph => proceeds_unresolvedType _ graph
  unfold providedType
  split
  · exact proceeds_arrayType List.mem_cons_self
  · exact proceeds_arrayType List.mem_cons_self
  · exact proceeds_recordType (List.mem_cons_of_mem _ List.mem_cons_self)
  · exact proceeds_nonNullableType _
  · exact proceeds_filteredType List.mem_cons_self
  · split
    · exact proceeds_presenceType _ _ _
    · exact unresolved
  · exact unresolved

end Proceeds

/-! ### Types as written -/

/-- Resolution one level further in leads from reached graphs to reached graphs. -/
structure Deeper.Proceeds (symbols : Symbols) (levels : Nat) (deeper : Deeper) : Prop where
  instantiate : ∀ name arguments,
    TypeGraph.Proceeds symbols levels arguments (deeper.instantiate name arguments)
  valueType : ∀ name, TypeGraph.Proceeds symbols levels [] (deeper.valueType name)

section Resolve

variable {symbols : Symbols} {levels : Nat} {deeper : Deeper}
  (further : deeper.Proceeds symbols levels) (grounds : deeper.Grounds) (scope : Scope)

include further grounds

theorem proceeds_queriedType (name : String) :
    Proceeds symbols levels [] (queriedType deeper name) := by
  refine (further.valueType _).andThen fun id => .look fun seen _ holds => ⟨[], holds, ?_⟩
  cases seen.follow? id (segments name).tail with
  | some target => exact .pure target
  | none => exact proceeds_opaqueNode _

mutual

/-- **Resolving a type as written leads to a reached graph.** -/
theorem proceeds_resolve : ∀ type : TypeExpr,
    Proceeds symbols levels scope.places (resolve symbols deeper scope type)
  | .keyword keyword => by
    rw [resolve]
    exact proceeds_keywordType keyword
  | .stringLiteral value => by
    rw [resolve]
    exact proceeds_stringLiteralType value
  | .numberLiteral text => by
    rw [resolve]
    exact proceeds_allocate Kind.noConfusion (fun _ => Kind.noConfusion) (List.nil_subset _) text
  | .booleanLiteral value => by
    rw [resolve]
    exact proceeds_allocate Kind.noConfusion (fun _ => Kind.noConfusion) (List.nil_subset _) _
  | .reference name arguments => by
    rw [resolve]
    generalize (if arguments.isEmpty then scope.lookup name else none) = held
    cases held with
    | some id => exact .pure id
    | none =>
      refine (proceeds_resolveAll arguments).bind (grounds_resolveAll grounds scope arguments)
        fun ids => ?_
      have own : ids ⊆ scope.places ++ ids := List.subset_append_right _ _
      rw [namedType]
      split
      · exact (further.instantiate name ids).weaken own
      · exact (proceeds_providedType name ids).weaken own
  | .array element => by
    rw [resolve]
    exact (proceeds_resolve element).bind (grounds_resolve grounds scope element) fun _ =>
      proceeds_arrayType (List.mem_append_right _ List.mem_cons_self)
  | .tuple elements => by
    rw [resolve]
    exact (proceeds_resolveAll elements).bind (grounds_resolveAll grounds scope elements) fun ids =>
      proceeds_built (.tuple ids) Kind.noConfusion (fun _ => Kind.noConfusion) (List.subset_append_right _ _) _
  | .union members => by
    intro graph reached holds enough
    rw [resolve, bind_apply]
    obtain ⟨grows, after, joins⟩ := proceeds_resolveAlternatives members graph reached holds enough
    have inside : (resolveAlternatives symbols deeper scope members graph).2.Holds
        (resolveAlternatives symbols deeper scope members graph).1 :=
      (grounds_resolveAlternatives grounds scope members graph reached.grounded holds).2.2
    obtain ⟨further, last⟩ := after.union inside joins
    exact ⟨grows.trans further, last⟩
  | .intersection members => by
    rw [resolve]
    exact (proceeds_resolveAll members).bind (grounds_resolveAll grounds scope members) fun ids =>
      proceeds_built (.intersection ids) Kind.noConfusion (fun _ => Kind.noConfusion) (List.subset_append_right _ _) _
  | .object members => by
    rw [resolve]
    have start : scope.places ++ (Kind.object ⟨[], none⟩).parts ⊆ scope.places :=
      List.append_subset.mpr ⟨List.Subset.refl _, List.nil_subset _⟩
    exact (proceeds_resolveMembers ⟨[], none⟩ members).bind
      ((grounds_resolveMembers grounds scope ⟨[], none⟩ members).weaken start) fun _ =>
        proceeds_objectType (List.subset_append_right _ _)
  | .query name => by
    rw [resolve]
    exact (proceeds_queriedType further grounds name).weaken (List.nil_subset _)
  | .opaqueText text => by
    rw [resolve]
    exact proceeds_opaqueNode text

theorem proceeds_resolveAll : ∀ types : List TypeExpr,
    Proceeds symbols levels scope.places (resolveAll symbols deeper scope types)
  | [] => by
    rw [resolveAll]
    exact .pure _
  | type :: rest => by
    rw [resolveAll]
    exact (proceeds_resolve type).bind (grounds_resolve grounds scope type) fun _ =>
      ((proceeds_resolveAll rest).weaken (List.subset_append_left _ _)).andThen fun _ => .pure _

/-- The alternatives of members may join a union: what a member brings may do so when it is resolved, and
what is resolved behind it changes nothing about that. -/
theorem proceeds_resolveAlternatives : ∀ (types : List TypeExpr) (graph : Graph),
    Reached symbols graph → graph.Holds scope.places → symbols.room graph < levels →
      let result := resolveAlternatives symbols deeper scope types graph
      graph.GrowsTo result.2 ∧ Reached symbols result.2 ∧
        ∀ alternative ∈ result.1, result.2.MayJoin alternative
  | [], graph, reached, _, _ => by
    rw [resolveAlternatives]
    exact ⟨.refl graph, reached, fun _ member => absurd member List.not_mem_nil⟩
  | type :: rest, graph, reached, holds, enough => by
    rw [resolveAlternatives, bind_apply]
    obtain ⟨grows, between⟩ := proceeds_resolve type graph reached holds enough
    have finds : (resolve symbols deeper scope type graph).2.Holds
        [(resolve symbols deeper scope type graph).1] :=
      (grounds_resolve grounds scope type graph reached.grounded holds).2.2
    have still : symbols.room (resolve symbols deeper scope type graph).2 < levels := by
      rw [grows.room_eq]
      exact enough
    obtain ⟨further', after, joins⟩ := proceeds_resolveAlternatives rest _ between
      (holds.keep grows.size_le) still
    refine ⟨grows.trans further', after, fun alternative member => ?_⟩
    rcases List.mem_append.mp member with own | others
    · have inside := between.grounded.alternative_lt (finds _ List.mem_cons_self) alternative own
      exact (Graph.mayJoin_alternatives _ _ alternative own).later inside further'
    · exact joins alternative others

theorem proceeds_resolveMembers : ∀ (shape : ObjectShape) (members : List Member),
    Proceeds symbols levels scope.places (resolveMembers symbols deeper scope shape members)
  | shape, [] => by
    rw [resolveMembers]
    exact .pure shape
  | shape, .property name optional type :: rest => by
    rw [resolveMembers]
    exact (proceeds_resolve type).andThen fun _ => proceeds_resolveMembers _ rest
  | shape, .index key value :: rest => by
    rw [resolveMembers]
    refine (proceeds_resolve key).andThen fun _ => (proceeds_resolve value).andThen fun _ => ?_
    exact .look fun seen _ holds => ⟨_, holds, proceeds_resolveMembers _ rest⟩

end

theorem proceeds_resolveBases (shape : ObjectShape) (bases : List TypeExpr) :
    Proceeds symbols levels scope.places (resolveBases symbols deeper scope shape bases) := by
  induction bases generalizing shape with
  | nil => exact .pure shape
  | cons base rest ih =>
    rw [resolveBases]
    exact (proceeds_resolve further grounds scope base).andThen fun _ =>
      .look fun _ _ holds => ⟨_, holds, ih _⟩

theorem proceeds_bindParameters (parameters : List Parameter) (arguments : List TypeId) :
    Proceeds symbols levels (scope.places ++ arguments)
      (bindParameters symbols deeper scope parameters arguments) := by
  induction parameters generalizing scope arguments with
  | nil => exact .pure scope
  | cons parameter rest ih =>
    cases arguments with
    | cons argument others =>
      refine (ih ((parameter.name, argument) :: scope) others).weaken fun place member => ?_
      simp only [Scope.places, List.map_cons, List.mem_append, List.mem_cons] at member ⊢
      tauto
    | nil =>
      have bound : ∀ argument : TypeId,
          Scope.places ((parameter.name, argument) :: scope) ++ [] ⊆ scope.places ++ [] ++ [argument] :=
        fun argument place member => by
          simp only [Scope.places, List.map_cons, List.append_nil, List.mem_append, List.mem_cons]
            at member ⊢
          tauto
      have places : scope.places ⊆ scope.places ++ [] := List.subset_append_left _ _
      rw [bindParameters]
      cases parameter.fallback with
      | some fallback =>
        exact ((proceeds_resolve further grounds scope fallback).weaken places).bind
          ((grounds_resolve grounds scope fallback).weaken places) fun argument =>
            (ih _ []).weaken (bound argument)
      | none =>
        exact (proceeds_keywordType .unknown).bind (grounds_keywordType .unknown) fun argument =>
          (ih _ []).weaken (bound argument)

theorem proceeds_bodyKind (id : TypeId) (body : Body) :
    Proceeds symbols levels scope.places (bodyKind symbols deeper scope id body) := by
  cases body with
  | typeAlias type =>
    rw [bodyKind]
    exact (proceeds_resolve further grounds scope type).andThen fun _ =>
      .look fun _ _ holds => ⟨_, holds, .pure _⟩
  | interface bases members =>
    rw [bodyKind]
    exact (proceeds_resolveBases further grounds scope _ bases).andThen fun _ =>
      (proceeds_resolveMembers further grounds scope _ members).andThen fun _ => .pure _

end Resolve

/-! ### Declared types and values -/

section Level

variable {symbols : Symbols} {levels : Nat}

/-- A run of a declared type that is asked for in a reached graph stays among reached graphs. -/
theorem InstanceRun.StartsIn.reached {declared : Instance} {id : TypeId} {graph : Graph}
    {run : InstanceRun symbols .none declared id} (starts : run.StartsIn graph)
    (further : (Deeper.ofLevels symbols run.levels).Proceeds symbols run.levels)
    (before : Reached symbols graph) (free : graph.instances.lookup declared = none)
    (inside : graph.Holds declared.arguments) : Reached symbols run.after := by
  have grounds := Deeper.grounds_ofLevels symbols run.levels
  have entered : Reached symbols run.before := by
    rw [starts.entered]
    exact before.enter free inside
  have grows : graph.nodes.size ≤ run.before.nodes.size := by
    rw [starts.entered]
    exact Nat.le_of_lt (enterInstance_hasKind declared).lt_size
  have arguments : run.before.Holds declared.arguments := inside.keep grows
  obtain ⟨still, bound⟩ := proceeds_bindParameters further grounds [] run.definition.parameters
    declared.arguments _ entered arguments run.enough
  have places : run.bound.2.Holds run.bound.1.places :=
    (grounds_bindParameters grounds [] run.definition.parameters declared.arguments _ entered.grounded
      arguments).2.2
  have enough : symbols.room run.bound.2 < run.levels := by
    rw [InstanceRun.bound, still.room_eq]
    exact run.enough
  obtain ⟨_, within⟩ := proceeds_bodyKind further grounds run.bound.1 id run.definition.body _ bound
    places enough
  have parts : run.body.2.Holds run.body.1.parts :=
    (grounds_bodyKind grounds run.bound.1 id run.definition.body _ bound.grounded places).2.2
  exact .leave starts before free within parts

theorem proceeds_instantiateWith (further : (Deeper.ofLevels symbols levels).Proceeds symbols levels)
    (name : String) (arguments : List TypeId) :
    Proceeds symbols (levels + 1) arguments
      (instantiateWith symbols (.ofLevels symbols levels) name arguments) := by
  intro graph reached holds enough
  have asked : InstanceCases symbols .none levels false ⟨name, arguments⟩ graph
      (instantiateWith symbols (.ofLevels symbols levels) name arguments graph) :=
    instantiateWith_cases enough
      (congrFun ((Clear.passes_ofLevels symbols (levels + 1)).instantiate name arguments) graph)
  generalize instantiateWith symbols _ name arguments graph = result at asked ⊢
  cases asked with
  | remembered _ => exact ⟨.refl graph, reached⟩
  | undeclared _ text => exact proceeds_unresolvedType text graph reached holds enough
  | deep _ text => exact proceeds_opaqueNode text graph reached holds enough
  | resolved free run level before =>
    subst level
    have starts : run.StartsIn graph := ⟨rfl, before⟩
    exact ⟨starts.after_grows free, starts.reached further reached free holds⟩

theorem proceeds_valueTypeWith (further : (Deeper.ofLevels symbols levels).Proceeds symbols levels)
    (name : String) :
    Proceeds symbols (levels + 1) [] (valueTypeWith symbols (.ofLevels symbols levels) name) := by
  intro graph reached holds enough
  have passed := congrFun ((Clear.passes_ofLevels symbols (levels + 1)).valueType name) graph
  have keeps : Keeps symbols .none (levels + 1) _
      (valueTypeWith symbols (.ofLevels symbols levels) name) :=
    keeps_valueTypeWith (Deeper.keeps_ofLevels symbols .none levels) false name
  refine ⟨(keeps graph enough passed).grows, ?_⟩
  have asked : ValueCases symbols .none levels false name graph
      (valueTypeWith symbols (.ofLevels symbols levels) name graph) :=
    valueTypeWith_cases enough passed
  generalize valueTypeWith symbols _ name graph = result at asked ⊢
  cases asked with
  | remembered _ => exact reached
  | undeclared _ text => exact (proceeds_unresolvedType text graph reached holds enough).2
  | entered _ text => exact (proceeds_opaqueNode text graph reached holds enough).2
  | resolved free outside run level before =>
    subst level
    have started : Reached symbols run.before := by
      rw [before]
      exact reached.start name
    have nothing : run.before.Holds (Scope.places []) := fun _ member => absurd member List.not_mem_nil
    have grounds := Deeper.grounds_ofLevels symbols run.levels
    have after := (proceeds_resolve further grounds [] run.type _ started nothing run.enough).2
    have inside : run.resolved.2.Holds [run.resolved.1] :=
      (grounds_resolve grounds [] run.type _ started.grounded nothing).2.2
    exact after.finish (run.free (Deeper.keeps_ofLevels symbols .none run.levels) free before)
      (inside _ List.mem_cons_self)

end Level

/-- **All of resolution leads from reached graphs to reached graphs.** -/
theorem Deeper.proceeds_ofLevels (symbols : Symbols) (levels : Nat) :
    (Deeper.ofLevels symbols levels).Proceeds symbols levels := by
  induction levels with
  | zero => exact ⟨fun _ _ _ _ _ enough => absurd enough (Nat.not_lt_zero _),
      fun _ _ _ _ enough => absurd enough (Nat.not_lt_zero _)⟩
  | succ levels ih => exact ⟨proceeds_instantiateWith ih, proceeds_valueTypeWith ih⟩

/-- **The graphs after exports are reached.** -/
theorem reached_graphAfter (symbols : Symbols) (names : List String) {graph : Graph}
    (reached : Reached symbols graph) : Reached symbols (graphAfter symbols names graph) := by
  induction names generalizing graph with
  | nil => exact reached
  | cons name rest ih =>
    refine ih ?_
    show Reached symbols (exportType? symbols name graph).2
    cases exported : symbols.exportedValue? name with
    | none =>
      rw [exportType?_of_none exported]
      exact reached
    | some localName =>
      rw [exportType?_of_some exported]
      exact ((Deeper.proceeds_ofLevels symbols symbols.levels).valueType localName graph reached
        (fun _ member => absurd member List.not_mem_nil) (symbols.room_lt_levels graph)).2

end SwiftBindings.TypeGraph
