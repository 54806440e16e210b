/-
**Every place has a node.**

The places in a graph are those that its types refer to and those that it remembers: behind keywords,
literals and values, and behind declared types, whose arguments are places too (`Graph.remembered`). A
graph is grounded (`Graph.Grounded`) when all of them have nodes. This holds at every moment of a
resolution, also while declared types are unfinished, since such a type has its node before it is
remembered.

`Grounds given step found` says of a step that it leads from grounded graphs with the given places to
grounded graphs of no fewer nodes with the places it finds. Such steps are composed by `Grounds.bind`,
and all of resolution consists of them (`Deeper.grounds_ofLevels`).

**The main statement.** `exports_wellFormed`: after any exports all places have nodes, no type is
unfinished, and nothing is being resolved.
-/

import SwiftBindings.Proofs.TypeGraph.Parts
import SwiftBindings.Proofs.TypeGraph.Run

set_option linter.unusedSectionVars false

namespace SwiftBindings.TypeGraph

open Declared

/-! ### Grounded graphs -/

/-- All of the places have nodes. -/
def Graph.Holds (graph : Graph) (places : List TypeId) : Prop :=
  ∀ place ∈ places, place < graph.nodes.size

/-- The places in what a graph remembers. -/
def Graph.remembered (graph : Graph) : List TypeId :=
  graph.keywords.map Prod.snd ++ graph.literals.map Prod.snd ++
    graph.instances.flatMap (fun entry => entry.2 :: entry.1.arguments) ++ graph.values.map Prod.snd

/-- The graph is closed, and all places that it remembers have nodes. -/
structure Graph.Grounded (graph : Graph) : Prop extends graph.Closed where
  remembers : graph.Holds graph.remembered

theorem Graph.grounded_initial : Graph.initial.Grounded where
  method := by decide
  parts id node found := by
    cases id with
    | zero =>
      cases found
      exact fun part member => absurd member List.not_mem_nil
    | succ id => cases found
  remembers _ member := absurd member List.not_mem_nil

section Holds

variable {graph later : Graph} {places others : List TypeId}

theorem Graph.Holds.keep (holds : graph.Holds places)
    (grows : graph.nodes.size ≤ later.nodes.size) : later.Holds places :=
  fun place member => Nat.lt_of_lt_of_le (holds place member) grows

theorem Graph.Holds.subset (holds : graph.Holds places) (fewer : others ⊆ places) :
    graph.Holds others :=
  fun place member => holds place (fewer member)

theorem Graph.Holds.append (holds : graph.Holds places) (further : graph.Holds others) :
    graph.Holds (places ++ others) :=
  List.forall_mem_append.mpr ⟨holds, further⟩

theorem Graph.Holds.single {place : TypeId} (inside : place < graph.nodes.size) :
    graph.Holds [place] :=
  fun _ member => List.mem_singleton.mp member ▸ inside

end Holds

section Remembered

variable {graph : Graph}

theorem Graph.mem_remembered {place : TypeId} : place ∈ graph.remembered ↔
    (∃ entry ∈ graph.keywords, entry.2 = place) ∨ (∃ entry ∈ graph.literals, entry.2 = place) ∨
      (∃ entry ∈ graph.instances, place = entry.2 ∨ place ∈ entry.1.arguments) ∨
        ∃ entry ∈ graph.values, entry.2 = place := by
  simp only [Graph.remembered, List.mem_append, List.mem_map, List.mem_flatMap, List.mem_cons, or_assoc]

variable (grounded : graph.Grounded)

include grounded

theorem Graph.Grounded.keyword_lt {keyword : Keyword} {id : TypeId}
    (found : graph.keywords.lookup keyword = some id) : id < graph.nodes.size :=
  grounded.remembers id (Graph.mem_remembered.mpr (.inl ⟨_, mem_of_lookup_eq_some found, rfl⟩))

theorem Graph.Grounded.literal_lt {value : String} {id : TypeId}
    (found : graph.literals.lookup value = some id) : id < graph.nodes.size :=
  grounded.remembers id
    (Graph.mem_remembered.mpr (.inr (.inl ⟨_, mem_of_lookup_eq_some found, rfl⟩)))

theorem Graph.Grounded.instance_lt {declared : Instance} {id : TypeId}
    (found : graph.instances.lookup declared = some id) : id < graph.nodes.size :=
  grounded.remembers id
    (Graph.mem_remembered.mpr (.inr (.inr (.inl ⟨_, mem_of_lookup_eq_some found, .inl rfl⟩))))

theorem Graph.Grounded.value_lt {name : String} {id : TypeId}
    (found : graph.values.lookup name = some id) : id < graph.nodes.size :=
  grounded.remembers id
    (Graph.mem_remembered.mpr (.inr (.inr (.inr ⟨_, mem_of_lookup_eq_some found, rfl⟩))))

/-- A graph with the nodes of a grounded one is grounded if it remembers further places with nodes
only. -/
theorem Graph.Grounded.remember {other : Graph} (nodes : other.nodes = graph.nodes)
    (further : ∀ place ∈ other.remembered, place ∈ graph.remembered ∨ place < graph.nodes.size) :
    other.Grounded where
  method := by
    rw [nodes]
    exact grounded.method
  parts := by
    rw [nodes]
    exact grounded.parts
  remembers place member := by
    rw [nodes]
    rcases further place member with held | inside
    · exact grounded.remembers place held
    · exact inside

/-- A grounded graph with one more node whose parts are nodes. -/
theorem Graph.Grounded.push {kind : Kind} (inside : graph.Holds kind.parts) (text : String) :
    (allocate kind text graph).2.Grounded := by
  have size : (allocate kind text graph).2.nodes.size = graph.nodes.size + 1 := Array.size_push _
  have grows : graph.nodes.size ≤ (allocate kind text graph).2.nodes.size :=
    size ▸ Nat.le_succ _
  refine ⟨⟨Nat.lt_of_lt_of_le grounded.method grows, fun id node found => ?_⟩,
    grounded.remembers.keep grows⟩
  have pushed : (graph.nodes.push ⟨kind, text⟩)[id]? = some node := found
  rw [Array.getElem?_push] at pushed
  split at pushed
  · cases pushed
    exact inside.keep grows
  · exact Graph.Holds.keep (grounded.parts id node pushed) grows

end Remembered

/-! ### Steps -/

section Grounds

variable {α β : Type} {given more : List TypeId} {step : Building α} {found : α → List TypeId}

/-- The step leads from grounded graphs with the given places to grounded graphs with the places that
it finds, and takes no node away. -/
def Grounds (given : List TypeId) (step : Building α) (found : α → List TypeId) : Prop :=
  ∀ graph, graph.Grounded → graph.Holds given → (step graph).2.Grounded ∧
    graph.nodes.size ≤ (step graph).2.nodes.size ∧ (step graph).2.Holds (found (step graph).1)

theorem Grounds.pure {value : α} (among : found value ⊆ given) : Grounds given (pure value) found :=
  fun _ grounded holds => ⟨grounded, Nat.le_refl _, holds.subset among⟩

/-- A place that is given is answered. -/
theorem grounds_answer {id : TypeId} (inside : id ∈ given) :
    Grounds given (pure id) fun id => [id] :=
  .pure (List.cons_subset.mpr ⟨inside, List.nil_subset _⟩)

/-- More places may be given. -/
theorem Grounds.weaken (grounds : Grounds given step found) (among : given ⊆ more) :
    Grounds more step found :=
  fun graph grounded holds => grounds graph grounded (holds.subset among)

/-- **Steps that follow each other are composed.** The second one has the places of before and those
that the first one finds. -/
theorem Grounds.bind {rest : α → Building β} {last : β → List TypeId}
    (first : Grounds given step found)
    (second : ∀ value, Grounds (given ++ found value) (rest value) last) :
    Grounds given (step >>= rest) last := by
  intro graph grounded holds
  obtain ⟨between, grows, finds⟩ := first graph grounded holds
  obtain ⟨after, further, ends⟩ :=
    second (step graph).1 (step graph).2 between ((holds.keep grows).append finds)
  exact ⟨after, Nat.le_trans grows further, ends⟩

/-- A step that reads the graph goes on with places that have nodes there. -/
theorem Grounds.look {rest : Graph → Building β} {last : β → List TypeId}
    (grounds : ∀ seen : Graph, seen.Grounded → seen.Holds given →
      ∃ read, seen.Holds read ∧ Grounds read (rest seen) last) :
    Grounds given (get >>= rest) last := by
  intro graph grounded holds
  obtain ⟨read, held, goes⟩ := grounds graph grounded holds
  exact goes graph grounded held

theorem Grounds.ite {condition : Prop} [Decidable condition] {yes no : Building α}
    (grounds : Grounds given yes found) (otherwise : Grounds given no found) :
    Grounds given (if condition then yes else no) found := by
  split
  · exact grounds
  · exact otherwise

/-- A new node whose parts are nodes. -/
theorem grounds_allocate {kind : Kind} (inside : kind.parts ⊆ given) (text : String) :
    Grounds given (allocate kind text) fun id => [id] :=
  fun graph grounded holds => ⟨grounded.push (holds.subset inside) text,
    by show _ ≤ (graph.nodes.push _).size; rw [Array.size_push]; exact Nat.le_succ _,
    .single (allocate_hasKind kind text graph).lt_size⟩

/-- A new node without parts. -/
theorem grounds_leaf {kind : Kind} (alone : kind.parts = []) (text : String) :
    Grounds given (allocate kind text) fun id => [id] :=
  grounds_allocate (alone ▸ List.nil_subset _) text

/-- A new node whose text is put together from the graph. -/
theorem grounds_built (kind : Kind) (inside : kind.parts ⊆ given) (text : Graph → String) :
    Grounds given (get >>= fun seen => allocate kind (text seen)) fun id => [id] :=
  .look fun seen _ holds => ⟨given, holds, grounds_allocate inside (text seen)⟩

theorem grounds_keywordType (keyword : Keyword) :
    Grounds given (keywordType keyword) fun id => [id] := by
  intro graph grounded holds
  cases known : graph.keywords.lookup keyword with
  | some id =>
    rw [keywordType_of_some known]
    exact ⟨grounded, Nat.le_refl _, .single (grounded.keyword_lt known)⟩
  | none =>
    have leaf : Grounds [] (allocate (.primitive keyword) keyword.text) fun id => [id] :=
      grounds_leaf rfl keyword.text
    obtain ⟨pushed, grows, finds⟩ :=
      leaf graph grounded fun _ member => absurd member List.not_mem_nil
    rw [keywordType_of_none known]
    refine ⟨pushed.remember rfl fun place member => ?_, grows, finds⟩
    rcases List.mem_cons.mp member with rfl | before
    · exact .inr (finds _ List.mem_cons_self)
    · exact .inl before

theorem grounds_stringLiteralType (value : String) :
    Grounds given (stringLiteralType value) fun id => [id] := by
  intro graph grounded holds
  cases known : graph.literals.lookup value with
  | some id =>
    rw [stringLiteralType_of_some known]
    exact ⟨grounded, Nat.le_refl _, .single (grounded.literal_lt known)⟩
  | none =>
    have leaf : Grounds [] (allocate (.stringLiteral value) (literalText value)) fun id => [id] :=
      grounds_leaf rfl (literalText value)
    obtain ⟨pushed, grows, finds⟩ :=
      leaf graph grounded fun _ member => absurd member List.not_mem_nil
    rw [stringLiteralType_of_none known]
    refine ⟨pushed.remember rfl fun place member => ?_, grows, finds⟩
    rcases Graph.mem_remembered.mp member with keyword | ⟨entry, inside, rfl⟩ | others
    · exact .inl (Graph.mem_remembered.mpr (.inl keyword))
    · rcases List.mem_cons.mp inside with rfl | before
      · exact .inr (finds _ List.mem_cons_self)
      · exact .inl (Graph.mem_remembered.mpr (.inr (.inl ⟨entry, before, rfl⟩)))
    · exact .inl (Graph.mem_remembered.mpr (.inr (.inr others)))

end Grounds

/-! ### Types of the framework -/

section Framework

variable {given : List TypeId}

theorem grounds_arrayType {element : TypeId} (inside : element ∈ given) :
    Grounds given (arrayType element) fun id => [id] :=
  grounds_built (.array element) (List.cons_subset.mpr ⟨inside, List.nil_subset _⟩) _

theorem grounds_recordType {key value : TypeId} (inside : value ∈ given) :
    Grounds given (recordType key value) fun id => [id] := by
  intro graph grounded holds
  rw [recordType_run]
  have parts : (Kind.object (recordShape graph key value)).parts ⊆ given :=
    fun part member => eq_of_mem_recordShape member ▸ inside
  exact grounds_allocate parts _ graph grounded holds

theorem grounds_presenceType (name : String) (change : PresenceChange) (target : TypeId) :
    Grounds given (presenceType name change target) fun id => [id] := by
  refine .look fun seen grounded _ => ?_
  let shape : ObjectShape := ⟨(seen.properties target).map change.apply, seen.index? target⟩
  have inside : seen.Holds (Kind.object shape).parts := by
    refine forall_mem_parts_object.mpr ⟨fun property member => ?_, grounded.index_lt target⟩
    obtain ⟨before, held, rfl⟩ := List.mem_map.mp member
    exact grounded.property_lt target before held
  exact ⟨_, inside, .ite (grounds_leaf rfl _) (grounds_allocate (List.Subset.refl _) _)⟩

theorem grounds_unionType {members : List TypeId} (inside : members ⊆ given) :
    Grounds given (unionType members) fun id => [id] :=
  grounds_built (.union members) inside _

theorem grounds_objectType {shape : ObjectShape} (inside : (Kind.object shape).parts ⊆ given) :
    Grounds given (objectType shape) fun id => [id] :=
  grounds_built (.object shape) inside _

theorem grounds_nonNullableType {target : TypeId} (inside : target ∈ given) :
    Grounds given (nonNullableType target) fun id => [id] := by
  refine .look fun seen grounded holds => ?_
  cases members : seen.unionMembers? target with
  | none => exact ⟨given, holds, grounds_answer inside⟩
  | some alternatives =>
    refine ⟨alternatives, grounded.unionMember_lt members, ?_⟩
    dsimp only
    generalize kept : alternatives.filter _ = left
    have among : left ⊆ alternatives := kept ▸ fun _ member => (List.mem_filter.mp member).1
    split
    · exact .pure among
    · exact grounds_unionType among

/-- The types of properties. -/
def propertyTypes (properties : List Property) : List TypeId :=
  properties.map Property.type

theorem grounds_keepProperties {keep : TypeId → Building (Option TypeId)}
    (grounds : ∀ id, Grounds [id] (keep id) Option.toList) (properties : List Property) :
    Grounds (propertyTypes properties) (keepProperties keep properties) propertyTypes := by
  induction properties with
  | nil => exact .pure (List.Subset.refl _)
  | cons property rest ih =>
    rw [keepProperties]
    have first : Grounds (propertyTypes (property :: rest)) (keep property.type) Option.toList :=
      (grounds property.type).weaken (List.cons_subset_cons _ (List.nil_subset _))
    have others : propertyTypes rest ⊆ propertyTypes (property :: rest) := List.subset_cons_self _ _
    refine first.bind fun kept => ?_
    cases kept with
    | none => exact ih.weaken (List.subset_append_of_subset_left _ others)
    | some type =>
      refine (ih.weaken (List.subset_append_of_subset_left _ others)).bind fun later => .pure ?_
      refine List.cons_subset.mpr ⟨?_, List.subset_append_right _ _⟩
      exact List.mem_append_left _ (List.mem_append_right _ List.mem_cons_self)

theorem grounds_filterWithin (wanted : Option String) (levels : Nat) (id : TypeId) :
    Grounds [id] (filterWithin wanted levels id) Option.toList := by
  induction levels generalizing id with
  | zero => exact .pure (List.nil_subset _)
  | succ levels ih =>
    refine .look fun seen grounded holds => ?_
    split
    · refine ⟨[id], holds, ?_⟩
      cases wanted with
      | none => exact .pure (List.Subset.refl _)
      | some visibility =>
        refine .pure ?_
        split
        · exact List.Subset.refl _
        · exact List.nil_subset _
    · refine ⟨propertyTypes (seen.properties id), ?_, .ite (.pure (List.nil_subset _)) ?_⟩
      · intro place member
        obtain ⟨property, held, rfl⟩ := List.mem_map.mp member
        exact grounded.property_lt id property held
      · refine (grounds_keepProperties ih _).bind fun kept => .ite (.pure (List.nil_subset _)) ?_
        have parts : (Kind.object ⟨kept, none⟩).parts = propertyTypes kept := List.append_nil _
        refine (grounds_objectType (parts ▸ List.subset_append_right _ _)).bind fun added => ?_
        exact .pure (List.subset_append_right _ _)

theorem grounds_filteredType {api filter : TypeId} (inside : api ∈ given) :
    Grounds given (filteredType api filter) fun id => [id] := by
  refine .look fun seen _ holds => ⟨given, holds, .ite ?_ (grounds_leaf rfl _)⟩
  refine ((grounds_filterWithin _ _ api).weaken (List.cons_subset.mpr ⟨inside, List.nil_subset _⟩)).bind
    fun kept => ?_
  cases kept with
  | some id => exact .pure (List.subset_append_right _ _)
  | none => exact grounds_leaf rfl _

theorem grounds_providedType (name : String) (arguments : List TypeId) :
    Grounds arguments (providedType name arguments) fun id => [id] := by
  have unresolved : Grounds arguments (get >>= fun seen =>
      unresolvedType (seen.referenceText name arguments)) fun id => [id] :=
    grounds_built .unresolved (List.nil_subset _) _
  unfold providedType
  split
  · exact grounds_arrayType List.mem_cons_self
  · exact grounds_arrayType List.mem_cons_self
  · exact grounds_recordType (List.mem_cons_of_mem _ List.mem_cons_self)
  · exact grounds_nonNullableType List.mem_cons_self
  · exact grounds_filteredType List.mem_cons_self
  · split
    · exact grounds_presenceType _ _ _
    · exact unresolved
  · exact unresolved

end Framework

/-! ### Types as written -/

/-- The places that type parameters stand for. -/
def Scope.places (scope : Scope) : List TypeId :=
  scope.map Prod.snd

/-- Resolution one level further in leads from grounded graphs to grounded graphs. -/
structure Deeper.Grounds (deeper : Deeper) : Prop where
  instantiate : ∀ name arguments,
    TypeGraph.Grounds arguments (deeper.instantiate name arguments) fun id => [id]
  valueType : ∀ name, TypeGraph.Grounds [] (deeper.valueType name) fun id => [id]

section Resolve

variable {symbols : Symbols} {deeper : Deeper} (further : deeper.Grounds) (scope : Scope)

include further

theorem grounds_namedType (name : String) (arguments : List TypeId) :
    Grounds arguments (namedType symbols deeper name arguments) fun id => [id] := by
  rw [namedType]
  exact .ite (further.instantiate name arguments) (grounds_providedType name arguments)

theorem grounds_queriedType (name : String) :
    Grounds [] (queriedType deeper name) fun id => [id] := by
  refine (further.valueType _).bind fun id => .look fun seen grounded holds => ?_
  cases found : seen.follow? id (segments name).tail with
  | some target =>
    have inside := grounded.follow_lt (holds id List.mem_cons_self) found
    exact ⟨[target], .single inside, .pure (List.Subset.refl _)⟩
  | none => exact ⟨[], fun _ member => absurd member List.not_mem_nil, grounds_leaf rfl _⟩

mutual

/-- **Resolving a type as written finds a place with a node.** -/
theorem grounds_resolve : ∀ type : TypeExpr,
    Grounds scope.places (resolve symbols deeper scope type) fun id => [id]
  | .keyword keyword => by
    rw [resolve]
    exact grounds_keywordType keyword
  | .stringLiteral value => by
    rw [resolve]
    exact grounds_stringLiteralType value
  | .numberLiteral text => by
    rw [resolve]
    exact grounds_leaf rfl text
  | .booleanLiteral value => by
    rw [resolve]
    exact grounds_leaf rfl _
  | .reference name arguments => by
    rw [resolve]
    generalize known : (if arguments.isEmpty then scope.lookup name else none) = held
    cases held with
    | some id =>
      refine grounds_answer ?_
      split at known
      · exact List.mem_map_of_mem (mem_of_lookup_eq_some known)
      · cases known
    | none =>
      exact (grounds_resolveAll arguments).bind fun ids =>
        (grounds_namedType further name ids).weaken (List.subset_append_right _ _)
  | .array element => by
    rw [resolve]
    exact (grounds_resolve element).bind fun _ =>
      grounds_arrayType (List.mem_append_right _ List.mem_cons_self)
  | .tuple elements => by
    rw [resolve]
    exact (grounds_resolveAll elements).bind fun ids =>
      grounds_built (.tuple ids) (List.subset_append_right _ _) _
  | .union members => by
    rw [resolve]
    exact (grounds_resolveAlternatives members).bind fun _ =>
      grounds_unionType (List.subset_append_right _ _)
  | .intersection members => by
    rw [resolve]
    exact (grounds_resolveAll members).bind fun ids =>
      grounds_built (.intersection ids) (List.subset_append_right _ _) _
  | .object members => by
    rw [resolve]
    have start : Grounds scope.places (resolveMembers symbols deeper scope ⟨[], none⟩ members)
        fun shape => (Kind.object shape).parts :=
      (grounds_resolveMembers ⟨[], none⟩ members).weaken
        (List.append_subset.mpr ⟨List.Subset.refl _, List.nil_subset _⟩)
    exact start.bind fun _ => grounds_objectType (List.subset_append_right _ _)
  | .query name => by
    rw [resolve]
    exact (grounds_queriedType further name).weaken (List.nil_subset _)
  | .opaqueText text => by
    rw [resolve]
    exact grounds_leaf rfl text

theorem grounds_resolveAll : ∀ types : List TypeExpr,
    Grounds scope.places (resolveAll symbols deeper scope types) id
  | [] => by
    rw [resolveAll]
    exact .pure (List.nil_subset _)
  | type :: rest => by
    rw [resolveAll]
    refine (grounds_resolve type).bind fun first => ?_
    refine ((grounds_resolveAll rest).weaken (List.subset_append_left _ _)).bind fun others => ?_
    refine .pure (List.cons_subset.mpr ⟨?_, List.subset_append_right _ _⟩)
    exact List.mem_append_left _ (List.mem_append_right _ List.mem_cons_self)

theorem grounds_resolveAlternatives : ∀ types : List TypeExpr,
    Grounds scope.places (resolveAlternatives symbols deeper scope types) id
  | [] => by
    rw [resolveAlternatives]
    exact .pure (List.nil_subset _)
  | type :: rest => by
    rw [resolveAlternatives]
    refine (grounds_resolve type).bind fun first => .look fun seen grounded holds => ?_
    obtain ⟨places, own⟩ := List.forall_mem_append.mp holds
    have alternatives := grounded.alternative_lt (own first List.mem_cons_self)
    refine ⟨scope.places ++ seen.alternatives first, Graph.Holds.append places alternatives, ?_⟩
    refine ((grounds_resolveAlternatives rest).weaken (List.subset_append_left _ _)).bind
      fun others => .pure ?_
    exact List.append_subset.mpr
      ⟨List.subset_append_of_subset_left _ (List.subset_append_right _ _),
        List.subset_append_right _ _⟩

theorem grounds_resolveMembers : ∀ (shape : ObjectShape) (members : List Member),
    Grounds (scope.places ++ (Kind.object shape).parts)
      (resolveMembers symbols deeper scope shape members) fun result => (Kind.object result).parts
  | shape, [] => by
    rw [resolveMembers]
    exact .pure (List.subset_append_right _ _)
  | shape, .property name optional type :: rest => by
    rw [resolveMembers]
    refine ((grounds_resolve type).weaken (List.subset_append_left _ _)).bind fun id => ?_
    refine (grounds_resolveMembers _ rest).weaken (List.append_subset.mpr ⟨?_, ?_⟩)
    · exact List.subset_append_of_subset_left _ (List.subset_append_left _ _)
    · obtain ⟨properties, index⟩ := forall_mem_parts_object.mp fun part member =>
        List.mem_append_left [id] (List.mem_append_right scope.places member)
      exact forall_mem_parts_object.mpr
        ⟨forall_mem_upsertProperty properties (List.mem_append_right _ List.mem_cons_self), index⟩
  | shape, .index key value :: rest => by
    rw [resolveMembers]
    refine ((grounds_resolve key).weaken (List.subset_append_left _ _)).bind fun keyId => ?_
    refine ((grounds_resolve value).weaken
      (List.subset_append_of_subset_left _ (List.subset_append_left _ _))).bind fun valueId => ?_
    refine .look fun seen grounded holds => ⟨_, holds, (grounds_resolveMembers _ rest).weaken ?_⟩
    have before : scope.places ++ (Kind.object shape).parts ⊆
        scope.places ++ (Kind.object shape).parts ++ [keyId] ++ [valueId] :=
      List.subset_append_of_subset_left _ (List.subset_append_left _ _)
    obtain ⟨places, parts⟩ := List.append_subset.mp before
    refine List.append_subset.mpr ⟨places, ?_⟩
    rw [ObjectShape.indexed]
    split
    · refine forall_mem_parts_object.mpr ⟨(forall_mem_parts_object.mp parts).1, fun held same => ?_⟩
      cases same
      exact List.mem_append_right _ List.mem_cons_self
    · exact parts

end

theorem grounds_resolveBases (shape : ObjectShape) (bases : List TypeExpr) :
    Grounds (scope.places ++ (Kind.object shape).parts)
      (resolveBases symbols deeper scope shape bases) fun result => (Kind.object result).parts := by
  induction bases generalizing shape with
  | nil => exact .pure (List.subset_append_right _ _)
  | cons base rest ih =>
    rw [resolveBases]
    refine ((grounds_resolve further scope base).weaken (List.subset_append_left _ _)).bind
      fun id => .look fun seen grounded holds => ⟨_, ?_, ih _⟩
    obtain ⟨before, _⟩ := List.forall_mem_append.mp holds
    obtain ⟨places, parts⟩ := List.forall_mem_append.mp before
    obtain ⟨properties, index⟩ := forall_mem_parts_object.mp parts
    refine Graph.Holds.append places (forall_mem_parts_object.mpr
      ⟨forall_mem_foldl_upsertProperty properties (grounded.property_lt id), fun value found => ?_⟩)
    rcases Option.or_eq_some_iff.mp found with own | ⟨_, inherited⟩
    · exact index value own
    · exact grounded.index_lt id value inherited

theorem grounds_bindParameters (parameters : List Parameter) (arguments : List TypeId) :
    Grounds (scope.places ++ arguments) (bindParameters symbols deeper scope parameters arguments)
      Scope.places := by
  induction parameters generalizing scope arguments with
  | nil => exact .pure (List.subset_append_left _ _)
  | cons parameter rest ih =>
    cases arguments with
    | cons argument others =>
      refine (ih ((parameter.name, argument) :: scope) others).weaken fun place member => ?_
      rcases List.mem_append.mp member with bound | left
      · rcases List.mem_cons.mp bound with rfl | before
        · exact List.mem_append_right _ List.mem_cons_self
        · exact List.mem_append_left _ before
      · exact List.mem_append_right _ (List.mem_cons_of_mem _ left)
    | nil =>
      have bound : ∀ argument : TypeId,
          Scope.places ((parameter.name, argument) :: scope) ++ [] ⊆ scope.places ++ [] ++ [argument] :=
        fun argument place member => by
          rw [List.append_nil] at member ⊢
          rcases List.mem_cons.mp member with rfl | before
          · exact List.mem_append_right _ List.mem_cons_self
          · exact List.mem_append_left _ before
      rw [bindParameters]
      cases parameter.fallback with
      | some fallback =>
        exact ((grounds_resolve further scope fallback).weaken (List.subset_append_left _ _)).bind
          fun argument => (ih _ []).weaken (bound argument)
      | none =>
        exact (grounds_keywordType .unknown).bind fun argument => (ih _ []).weaken (bound argument)

/-! ### Declared types and values -/

theorem grounds_bodyKind (id : TypeId) (body : Body) :
    Grounds scope.places (bodyKind symbols deeper scope id body) Kind.parts := by
  cases body with
  | typeAlias type =>
    rw [bodyKind]
    refine (grounds_resolve further scope type).bind fun target => .look fun seen grounded _ => ?_
    exact ⟨_, grounded.aliasKind_parts id target, .pure (List.Subset.refl _)⟩
  | interface bases members =>
    rw [bodyKind]
    have empty : scope.places ++ (Kind.object ⟨[], none⟩).parts ⊆ scope.places :=
      List.append_subset.mpr ⟨List.Subset.refl _, List.nil_subset _⟩
    refine ((grounds_resolveBases further scope _ bases).weaken empty).bind fun inherited => ?_
    refine ((grounds_resolveMembers further scope _ members).weaken
      (List.Subset.trans empty (List.subset_append_left _ _))).bind fun own => .pure ?_
    obtain ⟨properties, index⟩ := forall_mem_parts_object.mp fun part member =>
      List.mem_append_left (Kind.object own).parts (List.mem_append_right scope.places member)
    obtain ⟨properties', index'⟩ := forall_mem_parts_object.mp fun part member =>
      List.mem_append_right (scope.places ++ (Kind.object inherited).parts) member
    refine forall_mem_parts_object.mpr
      ⟨forall_mem_foldl_upsertProperty properties properties', fun value found => ?_⟩
    rcases Option.or_eq_some_iff.mp found with own | ⟨_, inherited⟩
    · exact index' value own
    · exact index value inherited

end Resolve

theorem size_leaveInstance (id : TypeId) (kind : Kind) (graph : Graph) :
    (leaveInstance id kind graph).2.nodes.size = graph.nodes.size := by
  rw [leaveInstance_eq]
  exact Array.size_modify

section Instance

variable {graph : Graph} (grounded : graph.Grounded)

include grounded

/-- A graph stays grounded when a declared type is entered: its node is there before it is
remembered. -/
theorem Graph.Grounded.enter {declared : Instance} (inside : graph.Holds declared.arguments) :
    (enterInstance declared graph).2.Grounded := by
  have pushed : (allocate .pending (graph.referenceText declared.name declared.arguments)
      graph).2.Grounded := grounded.push (fun _ member => absurd member List.not_mem_nil) _
  have grows : graph.nodes.size <
      (allocate .pending (graph.referenceText declared.name declared.arguments) graph).2.nodes.size :=
    (allocate_hasKind .pending _ graph).lt_size
  refine pushed.remember rfl fun place member => ?_
  rcases Graph.mem_remembered.mp member with keyword | literal | ⟨entry, held, own⟩ | value
  · exact .inl (Graph.mem_remembered.mpr (.inl keyword))
  · exact .inl (Graph.mem_remembered.mpr (.inr (.inl literal)))
  · rcases List.mem_cons.mp held with rfl | before
    · rcases own with rfl | argument
      · exact .inr grows
      · exact .inr (Nat.lt_trans (inside place argument) grows)
    · exact .inl (Graph.mem_remembered.mpr (.inr (.inr (.inl ⟨entry, before, own⟩))))
  · exact .inl (Graph.mem_remembered.mpr (.inr (.inr (.inr value))))

/-- A graph stays grounded when a node gets a structure whose parts are nodes. -/
theorem Graph.Grounded.leave {kind : Kind} (inside : graph.Holds kind.parts) (id : TypeId) :
    (leaveInstance id kind graph).2.Grounded := by
  have size := size_leaveInstance id kind graph
  refine ⟨⟨size ▸ grounded.method, fun other node found => ?_⟩, fun place member => ?_⟩
  · rw [size]
    rw [leaveInstance_eq] at found
    have modified : (graph.nodes.modify id fun node => { node with kind })[other]? = some node := found
    rw [Array.getElem?_modify] at modified
    split at modified
    · obtain ⟨before, _, rfl⟩ := Option.map_eq_some_iff.mp modified
      exact inside
    · exact grounded.parts other node modified
  · rw [size]
    exact grounded.remembers place member

end Instance

section Level

variable {symbols : Symbols} {deeper : Deeper} (further : deeper.Grounds)

include further

/-- **Resolving a declared type finds a place with a node.** -/
theorem grounds_instantiateWith (name : String) (arguments : List TypeId) :
    Grounds arguments (instantiateWith symbols deeper name arguments) fun id => [id] := by
  intro graph grounded holds
  cases free : graph.instances.lookup ⟨name, arguments⟩ with
  | some id =>
    rw [instantiateWith_of_some free]
    exact ⟨grounded, Nat.le_refl _, .single (grounded.instance_lt free)⟩
  | none =>
    cases declares : symbols.type? name with
    | none =>
      rw [instantiateWith_undeclared free declares]
      exact grounds_leaf rfl _ graph grounded holds
    | some definition =>
      rw [instantiateWith_declared free declares]
      split
      · exact grounds_leaf rfl _ graph grounded holds
      · have entered : (enterInstance ⟨name, arguments⟩ graph).2.Grounded := grounded.enter holds
        have inside : graph.nodes.size < (enterInstance ⟨name, arguments⟩ graph).2.nodes.size :=
          (enterInstance_hasKind _).lt_size
        have grows : graph.nodes.size ≤
            (enterInstance ⟨name, arguments⟩ graph).2.nodes.size := Nat.le_of_lt inside
        obtain ⟨bound, first, places⟩ := grounds_bindParameters further [] definition.parameters
          arguments _ entered (holds.keep grows)
        obtain ⟨after, second, parts⟩ := grounds_bodyKind further _
          (enterInstance ⟨name, arguments⟩ graph).1 definition.body _ bound places
        have path := Nat.le_trans first second
        refine ⟨after.leave parts _, ?_, .single ?_⟩
        · rw [size_leaveInstance]
          exact Nat.le_trans grows path
        · rw [size_leaveInstance]
          exact Nat.lt_of_lt_of_le inside path

theorem grounds_valueTypeWith (name : String) :
    Grounds [] (valueTypeWith symbols deeper name) fun id => [id] := by
  intro graph grounded holds
  cases free : graph.values.lookup name with
  | some id =>
    rw [valueTypeWith_of_some free]
    exact ⟨grounded, Nat.le_refl _, .single (grounded.value_lt free)⟩
  | none =>
    cases declares : symbols.value? name with
    | none =>
      rw [valueTypeWith_undeclared free declares]
      exact grounds_leaf rfl _ graph grounded holds
    | some type =>
      rw [valueTypeWith_declared free declares]
      split
      · exact grounds_leaf rfl _ graph grounded holds
      · have start : { graph with resolving := name :: graph.resolving }.Grounded :=
          grounded.remember rfl fun _ member => .inl member
        obtain ⟨after, grows, finds⟩ := grounds_resolve further [] type _ start holds
        refine ⟨after.remember rfl fun place member => ?_, grows, finds⟩
        rcases Graph.mem_remembered.mp member with keyword | literal | declared | ⟨entry, held, own⟩
        · exact .inl (Graph.mem_remembered.mpr (.inl keyword))
        · exact .inl (Graph.mem_remembered.mpr (.inr (.inl literal)))
        · exact .inl (Graph.mem_remembered.mpr (.inr (.inr (.inl declared))))
        · rcases List.mem_cons.mp held with rfl | before
          · exact .inr (own ▸ finds _ List.mem_cons_self)
          · exact .inl (Graph.mem_remembered.mpr (.inr (.inr (.inr ⟨entry, before, own⟩))))

end Level

/-- **All of resolution finds places with nodes**, with any number of levels left. -/
theorem Deeper.grounds_ofLevels (symbols : Symbols) (levels : Nat) :
    (Deeper.ofLevels symbols levels).Grounds := by
  induction levels with
  | zero =>
    refine ⟨fun name arguments => ?_, fun name => grounds_leaf rfl _⟩
    exact grounds_built .opaqueType (List.nil_subset _) _
  | succ levels ih => exact ⟨grounds_instantiateWith ih, grounds_valueTypeWith ih⟩

/-! ### Between exports -/

theorem grounds_exportType? (symbols : Symbols) (name : String) :
    Grounds [] (exportType? symbols name) Option.toList := by
  rw [exportType?]
  cases symbols.exportedValue? name with
  | none => exact .pure (List.nil_subset _)
  | some localName =>
    refine ((Deeper.grounds_ofLevels symbols symbols.levels).valueType localName).bind fun id => ?_
    exact .pure (List.Subset.refl _)

/-- **Every graph of a run is grounded.** -/
theorem graphAfter_grounded (symbols : Symbols) (names : List String) {graph : Graph}
    (grounded : graph.Grounded) : (graphAfter symbols names graph).Grounded := by
  induction names generalizing graph with
  | nil => exact grounded
  | cons name rest ih =>
    exact ih (grounds_exportType? symbols name graph grounded fun _ member =>
      absurd member List.not_mem_nil).1

/-- A graph between two exports: every place in it has a node, every type has its structure, and no
declared type and no value is being resolved. -/
structure Graph.WellFormed (graph : Graph) : Prop where
  method : methodType < graph.nodes.size
  parts : ∀ node ∈ graph.nodes, ∀ part ∈ node.kind.parts, part < graph.nodes.size
  remembers : ∀ place ∈ graph.remembered, place < graph.nodes.size
  finished : ∀ node ∈ graph.nodes, node.kind ≠ .pending
  depth : graph.depth = 0
  resolving : graph.resolving = []

/-- A grounded graph that has come out of all resolutions is well formed. -/
theorem Graph.Grounded.wellFormed {graph : Graph} (grounded : graph.Grounded)
    (grows : Graph.initial.GrowsTo graph) : graph.WellFormed where
  method := grounded.method
  parts node member := by
    obtain ⟨id, found⟩ := Array.mem_iff_getElem?.mp member
    exact grounded.parts id node found
  remembers := grounded.remembers
  finished node member pending := by
    obtain ⟨id, found⟩ := Array.mem_iff_getElem?.mp member
    refine grows.finished id ?_
    rw [Graph.kind, found]
    exact pending
  depth := grows.depth
  resolving := grows.resolving

/-- A grounded graph in which the structure of every type is known. -/
structure Graph.Settled (graph : Graph) : Prop extends graph.Grounded where
  finished : ∀ id, graph.kind id ≠ .pending

theorem Graph.WellFormed.settled {graph : Graph} (formed : graph.WellFormed) : graph.Settled where
  method := formed.method
  parts _ _ found := formed.parts _ (Array.mem_of_getElem? found)
  remembers := formed.remembers
  finished id pending := by
    obtain ⟨_, found⟩ := Graph.hasKind_pending pending
    exact formed.finished _ (Array.mem_of_getElem? found) rfl

section Settled

variable {graph later : Graph} (settled : graph.Settled)

include settled

/-- A step that has come to its end leaves no type unfinished. -/
theorem Graph.Settled.grow (grows : graph.GrowsTo later) (grounded : later.Grounded) :
    later.Settled :=
  { grounded with finished := fun id pending => settled.finished id (grows.pending id pending) }

theorem Graph.Settled.isKnown {id : TypeId} (inside : id < graph.nodes.size) :
    graph.isKnown id = true := by
  refine Graph.isKnown_iff.mpr ⟨⟨graph.text id, ?_⟩, settled.finished id⟩
  rw [Graph.kind, Graph.text, Array.getElem?_eq_getElem inside]
  rfl

theorem Graph.Settled.knowsWithin (levels : Nat) {id : TypeId} (inside : id < graph.nodes.size) :
    graph.knowsWithin levels id = true := by
  induction levels generalizing id with
  | zero => rfl
  | succ levels ih =>
    rw [Graph.knowsWithin, settled.isKnown inside, Bool.true_and]
    split
    · rename_i parts kind
      refine List.all_eq_true.mpr fun part member => ih (settled.part_lt id ?_)
      rw [kind]
      exact member
    · rfl

theorem Graph.Settled.knowsProperties {id : TypeId} (inside : id < graph.nodes.size) :
    graph.knowsProperties id = true :=
  settled.knowsWithin _ inside

theorem Graph.Settled.knowsProperty {id : TypeId} (inside : id < graph.nodes.size)
    (name : String) : graph.knowsProperty id name = true := by
  rw [Graph.knowsProperty, settled.knowsProperties inside, Bool.true_and]
  cases found : graph.property? id name with
  | none => rfl
  | some property =>
    exact settled.isKnown (settled.property_lt id property (List.mem_of_find?_eq_some found))

end Settled

/-- After any exports the graph is well formed. -/
theorem graphAfter_wellFormed (symbols : Symbols) (names : List String) :
    (graphAfter symbols names .initial).WellFormed :=
  (graphAfter_grounded symbols names Graph.grounded_initial).wellFormed
    (graphAfter_recorded symbols names).1

/-- After any exports, the next one answers a place with a node. -/
theorem exportType?_lt_size (symbols : Symbols) (names : List String) (name : String) :
    ∀ id ∈ (exportType? symbols name (graphAfter symbols names .initial)).1,
      id < (exportType? symbols name (graphAfter symbols names .initial)).2.nodes.size := by
  obtain ⟨_, _, finds⟩ := grounds_exportType? symbols name _
    (graphAfter_grounded symbols names Graph.grounded_initial) fun _ member =>
      absurd member List.not_mem_nil
  exact fun id found => finds id (Option.mem_toList.mpr found)

/-- **Between exports the graph is well formed.** After any exports, of values or of names that stand
for none, every place in the graph has a node, no type is unfinished, and nothing is being resolved;
and the next export answers a place with a node. -/
theorem exports_wellFormed (symbols : Symbols) (names : List String) (name : String) :
    (graphAfter symbols names .initial).WellFormed ∧
      ∀ id ∈ (exportType? symbols name (graphAfter symbols names .initial)).1,
        id < (exportType? symbols name (graphAfter symbols names .initial)).2.nodes.size :=
  ⟨graphAfter_wellFormed symbols names, exportType?_lt_size symbols names name⟩

end SwiftBindings.TypeGraph
