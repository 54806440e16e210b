/-
**Names of properties.**

A type literal, an interface and an intersection put no two properties of one name into an object type:
a later declaration takes the place of an earlier one, and a base or part that repeats a name adds
nothing. The types that derive object types from others (presence changes and filters) keep names or
drop them. A mapping with listed keys has one property for each listed key, whether or not a key was
listed before: it is the one way in which a name comes twice (`Graph.RepeatsKey`).

The invariant is `Graph.RepeatsOnlyKeys`, and `Upholds` says of a step that it grows the graph and
keeps the invariant. What resolves declared types and values upholds it at every level
(`Deeper.upholds_ofLevels`), so it holds after any exports.

**The main statement.** `duplicate_names_iff`: after any exports, some type lists a property name twice
exactly where some mapping lists it twice among its keys.
-/

import Mathlib.Data.List.Duplicate
import SwiftBindings.Proofs.Reduction.OriginSteps
import SwiftBindings.Proofs.TypeGraph.Inheritance

set_option linter.unusedSectionVars false

namespace SwiftBindings.TypeGraph

open Declared

/-! ### Names that stand twice -/

/-- The names of the properties of an object type. -/
def ObjectShape.names (shape : ObjectShape) : List String :=
  shape.properties.map Property.name

/-- The shape of a mapping with listed keys. -/
def keyedShape (names : List String) (value : TypeId) : ObjectShape :=
  ⟨names.map fun name => ⟨name, value, false⟩, none⟩

theorem names_keyedShape (names : List String) (value : TypeId) :
    (keyedShape names value).names = names := by
  rw [ObjectShape.names, keyedShape, List.map_map]
  exact List.map_id names

/-- Some mapping lists the name twice among its keys. -/
def Graph.RepeatsKey (graph : Graph) (name : String) : Prop :=
  ∃ id key value names, graph.literalKeys? key = some names ∧ List.Duplicate name names ∧
    graph.HasKind id (.object (keyedShape names value))

/-- Only mappings bring properties of one name twice into object types. -/
def Graph.RepeatsOnlyKeys (name : String) (graph : Graph) : Prop :=
  ∀ id shape, graph.kind id = .object shape → List.Duplicate name shape.names → graph.RepeatsKey name

theorem Graph.repeatsOnlyKeys_initial (name : String) : Graph.initial.RepeatsOnlyKeys name := by
  intro id shape kind
  cases id with
  | zero => cases kind
  | succ id => cases kind

/-- Only a place with a node can be of a type that is not opaque. -/
theorem Graph.hasKind_of_kind {graph : Graph} {id : TypeId} {kind : Kind} (same : graph.kind id = kind)
    (followed : kind ≠ .opaqueType) : graph.HasKind id kind := by
  rw [Graph.kind] at same
  cases found : graph.nodes[id]? with
  | none =>
    rw [found] at same
    exact absurd same.symm followed
  | some node =>
    rw [found] at same
    obtain ⟨held, text⟩ := node
    cases same
    exact ⟨text, found⟩

/-- Where every value is found by a second function too, so are all values of a list. -/
theorem mapM_eq_some_of_imp {α β : Type} {first second : α → Option β}
    (implied : ∀ item value, first item = some value → second item = some value) {items : List α}
    {values : List β} (found : items.mapM first = some values) : items.mapM second = some values := by
  induction items generalizing values with
  | nil => exact found
  | cons item rest ih =>
    rw [List.mapM_cons] at found ⊢
    obtain ⟨value, head, found⟩ := Option.bind_eq_some_iff.mp found
    obtain ⟨others, tail, same⟩ := Option.bind_eq_some_iff.mp found
    exact Option.bind_eq_some_iff.mpr ⟨value, implied item value head,
      Option.bind_eq_some_iff.mpr ⟨others, ih tail, same⟩⟩

section Later

variable {earlier later : Graph} {name : String}

theorem Graph.Continues.stringValue? (continues : earlier.Continues later) {id : TypeId}
    {value : String} (found : earlier.stringValue? id = some value) :
    later.stringValue? id = some value := by
  rw [Graph.stringValue?] at found
  split at found
  · rename_i kind
    have has := continues.hasKind (Graph.hasKind_of_kind kind Kind.noConfusion) Kind.noConfusion
    rw [Graph.stringValue?, has.kind_eq]
    exact found
  · cases found

/-- The keys that a type lists are listed later too. -/
theorem Graph.Continues.literalKeys? (continues : earlier.Continues later) {key : TypeId}
    {names : List String} (found : earlier.literalKeys? key = some names) :
    later.literalKeys? key = some names := by
  rw [Graph.literalKeys?] at found
  split at found
  · rename_i kind
    have has := continues.hasKind (Graph.hasKind_of_kind kind Kind.noConfusion) Kind.noConfusion
    rw [Graph.literalKeys?, has.kind_eq]
    exact found
  · rename_i members kind
    have has := continues.hasKind (Graph.hasKind_of_kind kind Kind.noConfusion) Kind.noConfusion
    rw [Graph.literalKeys?, has.kind_eq]
    exact mapM_eq_some_of_imp (fun _ _ value => continues.stringValue? value) found
  · cases found

theorem Graph.RepeatsKey.keep (continues : earlier.Continues later)
    (repeats : earlier.RepeatsKey name) : later.RepeatsKey name := by
  obtain ⟨id, key, value, names, keys, twice, has⟩ := repeats
  exact ⟨id, key, value, names, continues.literalKeys? keys, twice,
    continues.hasKind has Kind.noConfusion⟩

end Later

/-! ### Names of properties -/

theorem nodup_names_mergeProperties {first : List Property} (distinct : (first.map Property.name).Nodup)
    (second : List Property) : ((mergeProperties first second).map Property.name).Nodup := by
  rw [mergeProperties]
  induction second generalizing first with
  | nil => exact distinct
  | cons property rest ih =>
    rw [List.foldl_cons]
    split
    · exact ih distinct
    · rename_i new
      refine ih ?_
      rw [List.map_append, List.map_singleton]
      refine distinct.append (List.nodup_singleton _) (List.disjoint_singleton.mpr fun member => new ?_)
      obtain ⟨other, held, same⟩ := List.mem_map.mp member
      exact List.any_eq_true.mpr ⟨other, held, beq_iff_eq.mpr same⟩

theorem nodup_names_foldl_upsertProperty {properties : List Property}
    (distinct : (properties.map Property.name).Nodup) (added : List Property) :
    ((added.foldl upsertProperty properties).map Property.name).Nodup := by
  induction added generalizing properties with
  | nil => exact distinct
  | cons property rest ih => exact ih (nodup_names_upsertProperty distinct property)

/-- No parts of an intersection bring a name twice. -/
theorem nodup_names_parts (graph : Graph) (levels : Nat) (parts : List TypeId) {merged : List Property}
    (distinct : (merged.map Property.name).Nodup) :
    ((parts.foldl (fun merged part => mergeProperties merged (graph.propertiesWithin levels part))
      merged).map Property.name).Nodup := by
  induction parts generalizing merged with
  | nil => exact distinct
  | cons part rest ih => exact ih (nodup_names_mergeProperties distinct _)

theorem nodup_names_resolveBases {symbols : Symbols} {deeper : Deeper} {scope : Scope}
    {shape : ObjectShape} (distinct : (shape.properties.map Property.name).Nodup) (bases : List TypeExpr)
    (graph : Graph) :
    ((resolveBases symbols deeper scope shape bases graph).1.properties.map Property.name).Nodup := by
  induction bases generalizing shape graph with
  | nil => exact distinct
  | cons base rest ih =>
    rw [resolveBases]
    exact ih (nodup_names_foldl_upsertProperty distinct _) _

/-- Properties of one name come twice only from object types. -/
theorem Graph.object_of_duplicate {graph : Graph} {name : String} {levels : Nat} {id : TypeId}
    (twice : List.Duplicate name ((graph.propertiesWithin levels id).map Property.name)) :
    ∃ shape, graph.kind id = .object shape ∧ List.Duplicate name shape.names := by
  cases levels with
  | zero => cases twice
  | succ levels =>
    rw [Graph.propertiesWithin] at twice
    split at twice
    · rename_i shape kind
      exact ⟨shape, kind, twice⟩
    · have none : (([] : List Property).map Property.name).Nodup := List.nodup_nil
      exact absurd (nodup_names_parts graph levels _ none) twice.not_nodup
    all_goals exact absurd (by decide) twice.not_nodup

theorem Graph.RepeatsOnlyKeys.names {graph : Graph} {name : String}
    (only : graph.RepeatsOnlyKeys name) {id : TypeId} (twice : List.Duplicate name (graph.names id)) :
    graph.RepeatsKey name := by
  obtain ⟨shape, kind, twice⟩ := Graph.object_of_duplicate twice
  exact only id shape kind twice

/-- A mapping that lists a key twice has two properties of that name. -/
theorem Graph.RepeatsKey.exists_names {graph : Graph} {name : String}
    (repeats : graph.RepeatsKey name) : ∃ id, List.Duplicate name (graph.names id) := by
  obtain ⟨id, key, value, names, keys, twice, has⟩ := repeats
  refine ⟨id, ?_⟩
  rw [Graph.names, Graph.properties, Graph.propertiesWithin, has.kind_eq]
  show List.Duplicate name (keyedShape names value).names
  rwa [names_keyedShape]

/-! ### Steps -/

/-- Where there is room for it, the step grows the graph, and leaves it so that only mappings bring
properties of the name twice. -/
def Upholds (symbols : Symbols) (levels : Nat) (name : String) {α : Type} (step : Building α) : Prop :=
  ∀ graph, symbols.room graph < levels → graph.GrowsTo (step graph).2 ∧
    (graph.RepeatsOnlyKeys name → (step graph).2.RepeatsOnlyKeys name)

section Steps

variable {symbols : Symbols} {levels : Nat} {name : String} {α β : Type}

theorem Upholds.pure (value : α) : Upholds symbols levels name (pure value : Building α) :=
  fun graph _ => ⟨.refl graph, id⟩

theorem Upholds.bind {step : Building α} {rest : α → Building β}
    (first : Upholds symbols levels name step)
    (second : ∀ value, Upholds symbols levels name (rest value)) :
    Upholds symbols levels name (step >>= rest) := by
  intro graph enough
  obtain ⟨grows, keeps⟩ := first graph enough
  have still : symbols.room (step graph).2 < levels := by
    rw [grows.room_eq]
    exact enough
  obtain ⟨grows', keeps'⟩ := second (step graph).1 (step graph).2 still
  exact ⟨grows.trans grows', fun only => keeps' (keeps only)⟩

theorem Upholds.look {rest : Graph → Building β}
    (after : ∀ seen, Upholds symbols levels name (rest seen)) :
    Upholds symbols levels name (get >>= rest) :=
  fun graph enough => after graph graph enough

/-- A node is added: if it is an object type, its names come twice only where a mapping lists them
twice. -/
theorem Graph.RepeatsOnlyKeys.allocate {graph : Graph} (only : graph.RepeatsOnlyKeys name)
    {kind : Kind} (known : kind ≠ .pending) (text : String)
    (fits : ∀ shape, kind = .object shape → List.Duplicate name shape.names →
      (allocate kind text graph).2.RepeatsKey name) :
    (TypeGraph.allocate kind text graph).2.RepeatsOnlyKeys name := by
  intro id shape found twice
  rw [kind_allocate] at found
  split at found
  · exact fits shape found twice
  · exact (only id shape found twice).keep (allocate_grows known text graph).continues

/-- A node that is no object type. -/
theorem upholds_allocate {kind : Kind} (known : kind ≠ .pending)
    (other : ∀ shape, kind ≠ .object shape) (text : String) :
    Upholds symbols levels name (allocate kind text) :=
  fun graph _ => ⟨allocate_grows known text graph,
    fun only => only.allocate known text fun shape same => absurd same (other shape)⟩

/-- An object type is added behind other steps: a name comes twice in it only where a mapping of the
graph before them lists it twice. -/
theorem upholds_objectNode {graph after : Graph} {shape : ObjectShape} (grows : graph.GrowsTo after)
    (keeps : graph.RepeatsOnlyKeys name → after.RepeatsOnlyKeys name) (text : String)
    (fits : graph.RepeatsOnlyKeys name → List.Duplicate name shape.names → graph.RepeatsKey name) :
    graph.GrowsTo (allocate (.object shape) text after).2 ∧
      (graph.RepeatsOnlyKeys name → (allocate (.object shape) text after).2.RepeatsOnlyKeys name) := by
  have known : Kind.object shape ≠ .pending := Kind.noConfusion
  have added := allocate_grows known text after
  refine ⟨grows.trans added, fun only => (keeps only).allocate known text fun other same twice => ?_⟩
  cases same
  exact (fits only twice).keep (grows.trans added).continues

/-- A graph with the nodes of another holds the same object types. -/
theorem Graph.RepeatsOnlyKeys.of_nodes {graph other : Graph} (only : graph.RepeatsOnlyKeys name)
    (same : other.nodes = graph.nodes) : other.RepeatsOnlyKeys name := by
  cases graph
  cases other
  cases same
  exact only

theorem upholds_keywordType (keyword : Keyword) :
    Upholds symbols levels name (keywordType keyword) := by
  intro graph enough
  have keeps : Keeps symbols .none levels .pass (keywordType keyword) := keeps_keywordType keyword
  refine ⟨(keeps graph enough rfl).grows, fun only => ?_⟩
  cases found : graph.keywords.lookup keyword with
  | some id =>
    rw [keywordType_of_some found]
    exact only
  | none =>
    rw [keywordType_of_none found]
    have known : Kind.primitive keyword ≠ .pending := Kind.noConfusion
    exact (only.allocate known keyword.text fun _ same => Kind.noConfusion same).of_nodes rfl

theorem upholds_stringLiteralType (value : String) :
    Upholds symbols levels name (stringLiteralType value) := by
  intro graph enough
  have keeps : Keeps symbols .none levels .pass (stringLiteralType value) :=
    keeps_stringLiteralType value
  refine ⟨(keeps graph enough rfl).grows, fun only => ?_⟩
  cases found : graph.literals.lookup value with
  | some id =>
    rw [stringLiteralType_of_some found]
    exact only
  | none =>
    rw [stringLiteralType_of_none found]
    have known : Kind.stringLiteral value ≠ .pending := Kind.noConfusion
    exact (only.allocate known (literalText value) fun _ same => Kind.noConfusion same).of_nodes rfl

/-! ### Types of the framework -/

theorem upholds_recordType (key value : TypeId) :
    Upholds symbols levels name (recordType key value) := by
  intro graph enough
  rw [recordType_run]
  have known : Kind.object (recordShape graph key value) ≠ .pending := Kind.noConfusion
  have grows := allocate_grows known
    ("Record<" ++ graph.text key ++ ", " ++ graph.text value ++ ">") graph
  refine ⟨grows, fun only => only.allocate known _ fun shape same twice => ?_⟩
  cases same
  cases keys : graph.literalKeys? key with
  | none =>
    rw [recordShape, keys] at twice
    cases twice
  | some names =>
    have shaped : recordShape graph key value = keyedShape names value := by
      rw [recordShape, keys]
      rfl
    rw [shaped, names_keyedShape] at twice
    refine ⟨graph.nodes.size, key, value, names, grows.continues.literalKeys? keys, twice, ?_⟩
    rw [← shaped]
    exact allocate_hasKind _ _ graph

theorem upholds_presenceType (spelled : String) (change : PresenceChange) (target : TypeId) :
    Upholds symbols levels name (presenceType spelled change target) := by
  intro graph enough
  show graph.GrowsTo ((if _ then _ else _ : Building TypeId) graph).2 ∧
    (_ → ((if _ then _ else _ : Building TypeId) graph).2.RepeatsOnlyKeys name)
  split
  · exact upholds_allocate Kind.noConfusion (fun _ => Kind.noConfusion) _ graph enough
  · refine upholds_objectNode (.refl graph) id _ fun only twice => ?_
    rw [ObjectShape.names, List.map_map] at twice
    exact only.names twice

theorem upholds_unionType (members : List TypeId) :
    Upholds symbols levels name (unionType members) :=
  .look fun _ => upholds_allocate Kind.noConfusion (fun _ => Kind.noConfusion) _

theorem upholds_nonNullableType (target : TypeId) :
    Upholds symbols levels name (nonNullableType target) := by
  refine .look fun seen => ?_
  cases seen.unionMembers? target with
  | none => exact .pure _
  | some members =>
    dsimp only
    split
    · exact .pure _
    · exact upholds_unionType _

/-- The names of kept properties are among the names of all. -/
theorem sublist_names_keepProperties (keep : TypeId → Building (Option TypeId))
    (properties : List Property) (graph : Graph) :
    ((keepProperties keep properties graph).1.map Property.name).Sublist
      (properties.map Property.name) := by
  induction properties generalizing graph with
  | nil => exact .slnil
  | cons property rest ih =>
    rw [keepProperties, bind_apply]
    cases (keep property.type graph).1 with
    | none => exact (ih _).cons _
    | some type => exact (ih _).cons_cons _

theorem upholds_keepProperties {keep : TypeId → Building (Option TypeId)}
    (upholds : ∀ id, Upholds symbols levels name (keep id)) (properties : List Property) :
    Upholds symbols levels name (keepProperties keep properties) := by
  induction properties with
  | nil => exact .pure _
  | cons property rest ih =>
    refine (upholds property.type).bind fun kept => ?_
    cases kept with
    | none => exact ih
    | some type => exact ih.bind fun _ => .pure _

/-- The object type of kept properties, if there are any. -/
theorem upholds_kept {graph after : Graph} {kept : List Property} (grows : graph.GrowsTo after)
    (keeps : graph.RepeatsOnlyKeys name → after.RepeatsOnlyKeys name)
    (fits : graph.RepeatsOnlyKeys name → List.Duplicate name (kept.map Property.name) →
      graph.RepeatsKey name) :
    let result := (if kept.isEmpty then return none
      else return some (← objectType ⟨kept, none⟩) : Building (Option TypeId)) after
    graph.GrowsTo result.2 ∧ (graph.RepeatsOnlyKeys name → result.2.RepeatsOnlyKeys name) := by
  dsimp only
  split
  · exact ⟨grows, keeps⟩
  · exact upholds_objectNode grows keeps _ fits

theorem upholds_filterWithin (wanted : Option String) (walk : Nat) (id : TypeId) :
    Upholds symbols levels name (filterWithin wanted walk id) := by
  induction walk generalizing id with
  | zero => exact .pure _
  | succ walk ih =>
    intro graph enough
    rw [filterWithin, get_bind_apply]
    split
    · cases wanted with
      | none => exact Upholds.pure _ graph enough
      | some visibility => exact Upholds.pure _ graph enough
    · split
      · exact Upholds.pure _ graph enough
      · have names := sublist_names_keepProperties (filterWithin wanted walk) (graph.properties id) graph
        obtain ⟨grows, keeps⟩ := upholds_keepProperties ih (graph.properties id) graph enough
        exact upholds_kept grows keeps fun only twice => only.names (twice.mono_sublist names)

theorem upholds_filteredType (api filter : TypeId) :
    Upholds symbols levels name (filteredType api filter) := by
  refine .look fun seen => ?_
  split
  · refine (upholds_filterWithin _ _ _).bind fun kept => ?_
    cases kept with
    | some id => exact .pure _
    | none => exact fun graph _ => upholds_objectNode (.refl graph) id _ fun _ twice => by cases twice
  · exact upholds_allocate Kind.noConfusion (fun _ => Kind.noConfusion) _

theorem upholds_unresolvedType (text : String) :
    Upholds symbols levels name (unresolvedType text) :=
  upholds_allocate Kind.noConfusion (fun _ => Kind.noConfusion) text

theorem upholds_providedType (spelled : String) (arguments : List TypeId) :
    Upholds symbols levels name (providedType spelled arguments) := by
  unfold providedType
  split
  · exact .look fun _ => upholds_allocate Kind.noConfusion (fun _ => Kind.noConfusion) _
  · exact .look fun _ => upholds_allocate Kind.noConfusion (fun _ => Kind.noConfusion) _
  · exact upholds_recordType _ _
  · exact upholds_nonNullableType _
  · exact upholds_filteredType _ _
  · split
    · exact upholds_presenceType _ _ _
    · exact .look fun _ => upholds_unresolvedType _
  · exact .look fun _ => upholds_unresolvedType _

/-! ### Types as written -/

/-- One level further in only mappings bring properties of the name twice. -/
structure Deeper.Upholds (symbols : Symbols) (levels : Nat) (name : String) (deeper : Deeper) :
    Prop where
  instantiate : ∀ declared arguments, TypeGraph.Upholds symbols levels name
    (deeper.instantiate declared arguments)
  valueType : ∀ value, TypeGraph.Upholds symbols levels name (deeper.valueType value)

variable {deeper : Deeper} (further : deeper.Upholds symbols levels name) (scope : Scope)

include further

mutual

theorem upholds_resolve : ∀ type : TypeExpr,
    Upholds symbols levels name (resolve symbols deeper scope type)
  | .keyword keyword => upholds_keywordType keyword
  | .stringLiteral value => upholds_stringLiteralType value
  | .numberLiteral text => upholds_allocate Kind.noConfusion (fun _ => Kind.noConfusion) text
  | .booleanLiteral _ => upholds_allocate Kind.noConfusion (fun _ => Kind.noConfusion) _
  | .reference spelled arguments => by
    rw [resolve]
    generalize (if arguments.isEmpty then scope.lookup spelled else none) = held
    cases held with
    | some id => exact .pure id
    | none =>
      refine (upholds_resolveAll arguments).bind fun ids => ?_
      rw [namedType]
      split
      · exact further.instantiate spelled ids
      · exact upholds_providedType spelled ids
  | .array element => by
    rw [resolve]
    exact (upholds_resolve element).bind fun _ => .look fun _ =>
      upholds_allocate Kind.noConfusion (fun _ => Kind.noConfusion) _
  | .tuple elements => by
    rw [resolve]
    exact (upholds_resolveAll elements).bind fun _ => .look fun _ =>
      upholds_allocate Kind.noConfusion (fun _ => Kind.noConfusion) _
  | .union members => by
    rw [resolve]
    exact (upholds_resolveAlternatives members).bind fun _ => upholds_unionType _
  | .intersection members => by
    rw [resolve]
    exact (upholds_resolveAll members).bind fun _ => .look fun _ =>
      upholds_allocate Kind.noConfusion (fun _ => Kind.noConfusion) _
  | .object members => by
    intro graph enough
    rw [resolve]
    obtain ⟨grows, keeps⟩ := upholds_resolveMembers ⟨[], none⟩ members graph enough
    have empty : ((⟨[], none⟩ : ObjectShape).properties.map Property.name).Nodup := List.nodup_nil
    exact upholds_objectNode grows keeps _ fun _ twice =>
      absurd (nodup_names_resolveMembers empty members graph) twice.not_nodup
  | .query spelled => by
    rw [resolve, queriedType]
    refine (further.valueType _).bind fun id => .look fun seen => ?_
    cases seen.follow? id (segments spelled).tail with
    | some found => exact .pure found
    | none => exact upholds_allocate Kind.noConfusion (fun _ => Kind.noConfusion) _
  | .opaqueText text => upholds_allocate Kind.noConfusion (fun _ => Kind.noConfusion) text

theorem upholds_resolveAll : ∀ types : List TypeExpr,
    Upholds symbols levels name (resolveAll symbols deeper scope types)
  | [] => .pure _
  | type :: rest => by
    rw [resolveAll]
    exact (upholds_resolve type).bind fun _ => (upholds_resolveAll rest).bind fun _ => .pure _

theorem upholds_resolveAlternatives : ∀ types : List TypeExpr,
    Upholds symbols levels name (resolveAlternatives symbols deeper scope types)
  | [] => .pure _
  | type :: rest => by
    rw [resolveAlternatives]
    exact (upholds_resolve type).bind fun _ => .look fun _ =>
      (upholds_resolveAlternatives rest).bind fun _ => .pure _

theorem upholds_resolveMembers : ∀ (shape : ObjectShape) (members : List Member),
    Upholds symbols levels name (resolveMembers symbols deeper scope shape members)
  | _, [] => .pure _
  | _, .property _ _ type :: rest => by
    rw [resolveMembers]
    exact (upholds_resolve type).bind fun _ => upholds_resolveMembers _ rest
  | _, .index key value :: rest => by
    rw [resolveMembers]
    exact (upholds_resolve key).bind fun _ => (upholds_resolve value).bind fun _ =>
      .look fun _ => upholds_resolveMembers _ rest

end

theorem upholds_resolveBases (shape : ObjectShape) (bases : List TypeExpr) :
    Upholds symbols levels name (resolveBases symbols deeper scope shape bases) := by
  induction bases generalizing shape with
  | nil => exact .pure _
  | cons base rest ih =>
    rw [resolveBases]
    exact (upholds_resolve further scope base).bind fun _ => .look fun _ => ih _

theorem upholds_bindParameters (parameters : List Parameter) (arguments : List TypeId) :
    Upholds symbols levels name (bindParameters symbols deeper scope parameters arguments) := by
  induction parameters generalizing scope arguments with
  | nil => exact .pure _
  | cons parameter rest ih =>
    cases arguments with
    | cons argument others => exact ih _ others
    | nil =>
      rw [bindParameters]
      cases parameter.fallback with
      | some fallback => exact (upholds_resolve further scope fallback).bind fun _ => ih _ []
      | none => exact (upholds_keywordType .unknown).bind fun _ => ih _ []

/-- Resolving a body leaves it so that only mappings bring the name twice, into the body's own
structure as well. -/
theorem upholds_bodyKind (id : TypeId) (body : Body) (graph : Graph)
    (enough : symbols.room graph < levels) :
    let result := bodyKind symbols deeper scope id body graph
    graph.GrowsTo result.2 ∧ (graph.RepeatsOnlyKeys name → result.2.RepeatsOnlyKeys name ∧
      ∀ shape, result.1 = .object shape → List.Duplicate name shape.names →
        result.2.RepeatsKey name) := by
  intro result
  cases body with
  | typeAlias type =>
    obtain ⟨grows, keeps⟩ := upholds_resolve further scope type graph enough
    refine ⟨grows, fun only => ⟨keeps only, fun shape same twice => ?_⟩⟩
    have copied : (resolve symbols deeper scope type graph).2.aliasKind id
        (resolve symbols deeper scope type graph).1 = .object shape := same
    rw [Graph.aliasKind] at copied
    split at copied
    · cases copied
    · split at copied
      · cases copied
      · exact keeps only _ shape copied twice
  | interface bases members =>
    have upholds : Upholds symbols levels name
        (bodyKind symbols deeper scope id (.interface bases members)) :=
      (upholds_resolveBases further scope _ bases).bind fun _ =>
        (upholds_resolveMembers further scope _ members).bind fun _ => .pure _
    obtain ⟨grows, keeps⟩ := upholds graph enough
    refine ⟨grows, fun only => ⟨keeps only, fun shape same twice => ?_⟩⟩
    cases same
    have empty : ((⟨[], none⟩ : ObjectShape).properties.map Property.name).Nodup := List.nodup_nil
    exact absurd (nodup_names_foldl_upsertProperty (nodup_names_resolveBases empty bases graph) _)
      twice.not_nodup

end Steps

/-! ### Declared types and values -/

section Level

variable {symbols : Symbols} {levels : Nat} {name : String}

/-- A declared type gets the structure of its body. -/
theorem Graph.RepeatsOnlyKeys.leave {graph : Graph} (only : graph.RepeatsOnlyKeys name) {id : TypeId}
    {kind : Kind} (unfinished : graph.HasKind id .pending)
    (fits : ∀ shape, kind = .object shape → List.Duplicate name shape.names → graph.RepeatsKey name) :
    (leaveInstance id kind graph).2.RepeatsOnlyKeys name := by
  have continues : graph.Continues (leaveInstance id kind graph).2 := leaveInstance_continues unfinished
  intro other shape found twice
  by_cases same : other = id
  · rw [same, (leaveInstance_hasKind unfinished).kind_eq] at found
    exact (fits shape found twice).keep continues
  · rw [leaveInstance_kind_of_ne same] at found
    exact (only other shape found twice).keep continues

theorem Graph.RepeatsOnlyKeys.enter {graph : Graph} (only : graph.RepeatsOnlyKeys name)
    (declared : Instance) (free : graph.instances.lookup declared = none) :
    (enterInstance declared graph).2.RepeatsOnlyKeys name := by
  intro id shape found twice
  rw [enterInstance_kind] at found
  split at found
  · cases found
  · exact (only id shape found twice).keep (enterInstance_continues declared free)

variable (further : (Deeper.ofLevels symbols levels).Upholds symbols levels name)

include further

theorem upholds_instantiateWith (spelled : String) (arguments : List TypeId) :
    Upholds symbols (levels + 1) name
      (instantiateWith symbols (.ofLevels symbols levels) spelled arguments) := by
  intro graph enough
  cases free : graph.instances.lookup ⟨spelled, arguments⟩ with
  | some id =>
    rw [instantiateWith_of_some free]
    exact ⟨.refl graph, fun only => only⟩
  | none =>
    cases declares : symbols.type? spelled with
    | none =>
      rw [instantiateWith_undeclared free declares]
      exact upholds_unresolvedType _ graph enough
    | some definition =>
      rw [instantiateWith_declared free declares]
      split
      · exact upholds_allocate Kind.noConfusion (fun _ => Kind.noConfusion) _ graph enough
      · rename_i shallow
        have less : symbols.room (enterInstance ⟨spelled, arguments⟩ graph).2 < levels :=
          Nat.lt_of_lt_of_le (symbols.room_enter _ (Nat.lt_of_not_le shallow)) (Nat.le_of_lt_succ enough)
        obtain ⟨binds, bound⟩ := upholds_bindParameters further [] definition.parameters arguments
          _ less
        have still := less
        rw [← binds.room_eq] at still
        obtain ⟨grows, body⟩ := upholds_bodyKind further _ graph.nodes.size definition.body _ still
        have step : InstanceStep graph _ ⟨spelled, arguments⟩ := ⟨free, binds.trans grows⟩
        refine ⟨step.leave_grows (bodyKind_ne_pending _ _ _ _ _), fun only => ?_⟩
        obtain ⟨kept, fits⟩ := body (bound (only.enter _ free))
        exact kept.leave step.unfinished fits

theorem upholds_valueTypeWith (value : String) :
    Upholds symbols (levels + 1) name (valueTypeWith symbols (.ofLevels symbols levels) value) := by
  intro graph enough
  have passed := congrFun ((Clear.passes_ofLevels symbols (levels + 1)).valueType value) graph
  refine ⟨((Deeper.keeps_ofLevels symbols .none (levels + 1)).valueType false value graph enough
    passed).grows, fun only => ?_⟩
  cases free : graph.values.lookup value with
  | some id =>
    rw [valueTypeWith_of_some free]
    exact only
  | none =>
    cases declares : symbols.value? value with
    | none =>
      rw [valueTypeWith_undeclared free declares]
      exact (upholds_unresolvedType _ graph enough).2 only
    | some type =>
      rw [valueTypeWith_declared free declares]
      split
      · exact only.allocate (by exact Kind.noConfusion) _ fun _ same => Kind.noConfusion same
      · rename_i outside
        have less : symbols.room { graph with resolving := value :: graph.resolving } < levels :=
          Nat.lt_of_lt_of_le (Symbols.room_resolving declares outside) (Nat.le_of_lt_succ enough)
        obtain ⟨_, keeps⟩ := upholds_resolve further [] type _ less
        exact (keeps (only.of_nodes rfl)).of_nodes rfl

end Level

theorem Deeper.upholds_ofLevels (symbols : Symbols) (name : String) (levels : Nat) :
    (Deeper.ofLevels symbols levels).Upholds symbols levels name := by
  induction levels with
  | zero => exact ⟨fun _ _ _ enough => absurd enough (Nat.not_lt_zero _),
      fun _ _ enough => absurd enough (Nat.not_lt_zero _)⟩
  | succ levels ih => exact ⟨upholds_instantiateWith ih, upholds_valueTypeWith ih⟩

/-- An export leaves it so that only mappings bring the name twice. -/
theorem Graph.RepeatsOnlyKeys.export {symbols : Symbols} {graph : Graph} {name : String}
    (only : graph.RepeatsOnlyKeys name) (value : String) :
    (exportType? symbols value graph).2.RepeatsOnlyKeys name := by
  cases exported : symbols.exportedValue? value with
  | none =>
    rw [exportType?_of_none exported]
    exact only
  | some localName =>
    rw [exportType?_of_some exported]
    exact ((Deeper.upholds_ofLevels symbols name symbols.levels).valueType localName graph
      (symbols.room_lt_levels graph)).2 only

/-- **After any exports only mappings bring properties of one name twice into object types.** -/
theorem graphAfter_repeatsOnlyKeys (symbols : Symbols) (exports : List String) (name : String) :
    (graphAfter symbols exports .initial).RepeatsOnlyKeys name :=
  List.foldlRecOn exports _ (Graph.repeatsOnlyKeys_initial name) fun _ only value _ =>
    only.export value

/-- **A property name comes twice exactly where a mapping lists it twice.** -/
theorem duplicate_names_iff (symbols : Symbols) (exports : List String) (name : String) :
    (∃ id, List.Duplicate name ((graphAfter symbols exports .initial).names id)) ↔
      (graphAfter symbols exports .initial).RepeatsKey name :=
  ⟨fun ⟨_, twice⟩ => (graphAfter_repeatsOnlyKeys symbols exports name).names twice,
    Graph.RepeatsKey.exists_names⟩

end SwiftBindings.TypeGraph
