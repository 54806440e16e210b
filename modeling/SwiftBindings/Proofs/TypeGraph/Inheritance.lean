/-
**What an interface inherits.**

An interface takes over the properties that its bases have at the moment they are resolved
(`CopiedBase`). In the end it has exactly those and its own members, and its own members decide where
both have a name. A base that was finished at that moment has the same properties in the end, so all
of them are inherited. A base that was not — one that refers to the interface and is itself being
resolved — shows no properties yet, and what it gets later is missing.

`interface_inherits_iff` says when a base is inherited in full, for every interface that is resolved by
any sequence of exports.
-/

import Mathlib.Data.List.Nodup
import Mathlib.Tactic.Tauto
import SwiftBindings.Proofs.TypeGraph.Run

namespace SwiftBindings.TypeGraph

open Declared

/-! ### Names of properties -/

/-- The names of a type's properties. -/
def Graph.names (graph : Graph) (id : TypeId) : List String :=
  (graph.properties id).map Property.name

theorem mem_names_upsertProperty (properties : List Property) (property : Property)
    (name : String) : name ∈ (upsertProperty properties property).map Property.name ↔
      name ∈ properties.map Property.name ∨ name = property.name := by
  induction properties with
  | nil => simp [upsertProperty]
  | cons first rest ih =>
    rw [upsertProperty]
    split
    · rename_i same
      simp only [List.map_cons, List.mem_cons, same]
      tauto
    · rw [List.map_cons, List.mem_cons, ih, List.map_cons, List.mem_cons, or_assoc]

/-- Putting in properties adds their names and no others. -/
theorem mem_names_foldl_upsertProperty (added properties : List Property) (name : String) :
    name ∈ (added.foldl upsertProperty properties).map Property.name ↔
      name ∈ properties.map Property.name ∨ name ∈ added.map Property.name := by
  induction added generalizing properties with
  | nil => simp
  | cons property rest ih =>
    rw [List.foldl_cons, ih, mem_names_upsertProperty, List.map_cons, List.mem_cons, or_assoc]

/-- A property that is put in is found under its name, and the others stay. -/
theorem find?_upsertProperty (properties : List Property) (property : Property) (name : String) :
    (upsertProperty properties property).find? (fun other => other.name == name) =
      if property.name = name then some property
      else properties.find? fun other => other.name == name := by
  induction properties with
  | nil =>
    rw [upsertProperty, List.find?_singleton]
    simp only [beq_iff_eq, List.find?_nil]
  | cons first rest ih =>
    rw [upsertProperty]
    by_cases same : first.name = property.name
    · rw [if_pos same, List.find?_cons, List.find?_cons, same]
      by_cases here : property.name = name
      · rw [if_pos here, beq_iff_eq.mpr here]
      · rw [if_neg here, beq_false_of_ne here]
    · rw [if_neg same, List.find?_cons, ih, List.find?_cons]
      by_cases here : property.name = name
      · subst here
        rw [beq_false_of_ne same]
      · rw [if_neg here, if_neg here]

/-- Of properties that are put in, the last one of a name decides. -/
theorem find?_foldl_upsertProperty {added : List Property}
    (distinct : (added.map Property.name).Nodup) (properties : List Property)
    {property : Property} (inside : property ∈ added) :
    (added.foldl upsertProperty properties).find? (fun other => other.name == property.name) =
      some property := by
  induction added generalizing properties with
  | nil => cases inside
  | cons first rest ih =>
    rw [List.map_cons, List.nodup_cons] at distinct
    rw [List.foldl_cons]
    rcases List.mem_cons.mp inside with rfl | inside
    · have still : ∀ (others merged : List Property), property.name ∉ others.map Property.name →
          merged.find? (fun other => other.name == property.name) = some property →
          (others.foldl upsertProperty merged).find? (fun other => other.name == property.name) =
            some property := by
        intro others
        induction others with
        | nil => exact fun _ _ found => found
        | cons other others step =>
          intro merged outside found
          rw [List.map_cons, List.mem_cons, not_or] at outside
          rw [List.foldl_cons]
          refine step _ outside.2 ?_
          rw [find?_upsertProperty, if_neg (Ne.symm outside.1)]
          exact found
      refine still rest _ distinct.1 ?_
      rw [find?_upsertProperty, if_pos rfl]
    · exact ih distinct.2 _ inside

theorem nodup_names_upsertProperty {properties : List Property}
    (distinct : (properties.map Property.name).Nodup) (property : Property) :
    ((upsertProperty properties property).map Property.name).Nodup := by
  induction properties with
  | nil => exact List.nodup_singleton _
  | cons first rest ih =>
    rw [List.map_cons, List.nodup_cons] at distinct
    rw [upsertProperty]
    split
    · rename_i same
      rw [List.map_cons, List.nodup_cons, ← same]
      exact distinct
    · rename_i different
      rw [List.map_cons, List.nodup_cons, mem_names_upsertProperty]
      exact ⟨not_or.mpr ⟨distinct.1, different⟩, ih distinct.2⟩

/-! ### Properties of finished types -/

/-- Of a type that is finished, as far as its properties go, the properties stay the same. -/
theorem Graph.Continues.propertiesWithin_eq {earlier later : Graph}
    (continues : earlier.Continues later) {levels : Nat} {id : TypeId}
    (known : earlier.knowsWithin levels id = true) :
    later.propertiesWithin levels id = earlier.propertiesWithin levels id := by
  induction levels generalizing id with
  | zero => rfl
  | succ levels ih =>
    rw [Graph.knowsWithin] at known
    obtain ⟨here, inside⟩ := Bool.and_eq_true_iff.mp known
    rw [Graph.propertiesWithin, Graph.propertiesWithin, continues.kind_eq here]
    cases shape : earlier.kind id with
    | intersection parts =>
      rw [shape] at inside
      have same : ∀ part ∈ parts,
          later.propertiesWithin levels part = earlier.propertiesWithin levels part :=
        fun part member => ih (List.all_eq_true.mp inside part member)
      exact List.foldl_ext _ _ _ fun merged part member => by rw [same part member]
    | primitive keyword => cases keyword <;> rfl
    | _ => rfl

theorem Graph.Continues.properties_eq {earlier later : Graph}
    (continues : earlier.Continues later) {id : TypeId}
    (known : earlier.knowsProperties id = true) : later.properties id = earlier.properties id :=
  continues.propertiesWithin_eq known

/-! ### Bases as they are copied -/

/-- A base of an interface at the moment it is copied. -/
structure CopiedBase where
  /-- The type that the base resolves to. -/
  type : TypeId
  /-- The graph at that moment. -/
  seen : Graph

/-- The bases of an interface at the moments they are copied, in order. -/
def copiedBases (symbols : Symbols) (deeper : Deeper) (scope : Scope) :
    List TypeExpr → Graph → List CopiedBase
  | [], _ => []
  | base :: rest, graph =>
    ⟨(resolve symbols deeper scope base graph).1, (resolve symbols deeper scope base graph).2⟩ ::
      copiedBases symbols deeper scope rest (resolve symbols deeper scope base graph).2

section Bases

variable {symbols : Symbols} {watch : Watch} {levels : Nat} {deeper : Deeper} {clear : Clear}
  {own : Bool} {scope : Scope}

theorem length_copiedBases (bases : List TypeExpr) (graph : Graph) :
    (copiedBases symbols deeper scope bases graph).length = bases.length := by
  induction bases generalizing graph with
  | nil => rfl
  | cons base rest ih =>
    rw [copiedBases, List.length_cons, ih, List.length_cons]

/-- The copied names are those that the bases have at the moments they are copied. -/
theorem mem_names_resolveBases (shape : ObjectShape) (bases : List TypeExpr) (graph : Graph)
    (name : String) :
    name ∈ (resolveBases symbols deeper scope shape bases graph).1.properties.map Property.name ↔
      name ∈ shape.properties.map Property.name ∨
        ∃ base ∈ copiedBases symbols deeper scope bases graph, name ∈ base.seen.names base.type := by
  induction bases generalizing shape graph with
  | nil =>
    constructor
    · exact .inl
    · rintro (held | ⟨_, inside, _⟩)
      · exact held
      · cases inside
  | cons base rest ih =>
    have unfolded : resolveBases symbols deeper scope shape (base :: rest) graph =
        resolveBases symbols deeper scope
          { properties := ((resolve symbols deeper scope base graph).2.properties
              (resolve symbols deeper scope base graph).1).foldl upsertProperty shape.properties
            index := shape.index.or ((resolve symbols deeper scope base graph).2.index?
              (resolve symbols deeper scope base graph).1) } rest
          (resolve symbols deeper scope base graph).2 := by
      rw [resolveBases]
      rfl
    rw [unfolded, ih, mem_names_foldl_upsertProperty, copiedBases]
    simp only [List.mem_cons, exists_eq_or_imp, or_assoc]
    rfl

/-- The graphs at which bases are copied come before the one after all bases. -/
theorem copiedBases_continue (further : deeper.Keeps symbols watch levels clear)
    (shape : ObjectShape) (bases : List TypeExpr) (graph : Graph)
    (enough : symbols.room graph < levels)
    (passed : clearBases symbols deeper clear own scope bases graph = true) :
    ∀ base ∈ copiedBases symbols deeper scope bases graph,
      base.seen.Continues (resolveBases symbols deeper scope shape bases graph).2 := by
  induction bases generalizing shape graph with
  | nil => exact fun _ inside => absurd inside List.not_mem_nil
  | cons base rest ih =>
    rw [clearBases] at passed
    obtain ⟨first, others⟩ := Bool.and_eq_true_iff.mp passed
    have others := (Bool.and_eq_true_iff.mp others).2
    have advances := keeps_resolve further own scope base graph enough first
    have still : symbols.room (resolve symbols deeper scope base graph).2 < levels := by
      rw [advances.grows.room_eq]
      exact enough
    intro copied inside
    rw [resolveBases]
    rcases List.mem_cons.mp inside with rfl | inside
    · exact (keeps_resolveBases further own scope _ rest _ still others).grows.continues
    · exact ih _ _ still others copied inside

end Bases

/-! ### Own members -/

/-- The names that an interface declares. -/
def memberNames (members : List Member) : List String :=
  members.filterMap fun member =>
    match member with
    | .property name _ _ => some name
    | .index _ _ => none

section Members

variable {symbols : Symbols} {deeper : Deeper} {scope : Scope}

theorem resolveMembers_property (shape : ObjectShape) (name : String) (optional : Bool)
    (type : TypeExpr) (rest : List Member) (graph : Graph) :
    resolveMembers symbols deeper scope shape (.property name optional type :: rest) graph =
      resolveMembers symbols deeper scope
        { shape with properties := (upsertProperty shape.properties
            ⟨name, (resolve symbols deeper scope type graph).1, optional⟩) } rest
        (resolve symbols deeper scope type graph).2 := by
  rw [resolveMembers]
  rfl

theorem ObjectShape.properties_indexed (shape : ObjectShape) (key : Kind) (value : TypeId) :
    (shape.indexed key value).properties = shape.properties := by
  rw [ObjectShape.indexed]
  split <;> rfl

theorem resolveMembers_index (shape : ObjectShape) (key value : TypeExpr) (rest : List Member)
    (graph : Graph) :
    let keyed := resolve symbols deeper scope key graph
    let valued := resolve symbols deeper scope value keyed.2
    resolveMembers symbols deeper scope shape (.index key value :: rest) graph =
      resolveMembers symbols deeper scope (shape.indexed (valued.2.kind keyed.1) valued.1) rest
        valued.2 := by
  rw [resolveMembers]
  rfl

theorem mem_names_resolveMembers (shape : ObjectShape) (members : List Member) (graph : Graph)
    (name : String) :
    name ∈ (resolveMembers symbols deeper scope shape members graph).1.properties.map
        Property.name ↔
      name ∈ shape.properties.map Property.name ∨ name ∈ memberNames members := by
  induction members generalizing shape graph with
  | nil =>
    constructor
    · exact .inl
    · rintro (held | inside)
      · exact held
      · cases inside
  | cons member rest ih =>
    cases member with
    | property own optional type =>
      rw [resolveMembers_property, ih, mem_names_upsertProperty, or_assoc]
      simp [memberNames]
    | index key value =>
      rw [resolveMembers_index, ih, ObjectShape.properties_indexed]
      simp [memberNames]

theorem nodup_names_resolveMembers {shape : ObjectShape}
    (distinct : (shape.properties.map Property.name).Nodup) (members : List Member)
    (graph : Graph) :
    ((resolveMembers symbols deeper scope shape members graph).1.properties.map
      Property.name).Nodup := by
  induction members generalizing shape graph with
  | nil =>
    rw [resolveMembers]
    exact distinct
  | cons member rest ih =>
    cases member with
    | property own optional type =>
      rw [resolveMembers_property]
      exact ih (nodup_names_upsertProperty distinct _) _
    | index key value =>
      rw [resolveMembers_index]
      refine ih ?_ _
      rw [ObjectShape.properties_indexed]
      exact distinct

end Members

/-! ### Interfaces -/

section Interface

variable {symbols : Symbols} {watch : Watch} {declared : Instance} {id : TypeId}
  (run : InstanceRun symbols watch declared id)

/-- The bases of an interface at the moments they are copied in a resolution. -/
def InstanceRun.copied : List CopiedBase :=
  match run.definition.body with
  | .interface bases _ =>
    copiedBases symbols (.ofLevels symbols run.levels) run.bound.1 bases run.bound.2
  | .typeAlias _ => []

/-- The members that an interface declares, as they are resolved. -/
def InstanceRun.own : List Property :=
  match run.definition.body with
  | .interface bases members =>
    (resolveMembers symbols (.ofLevels symbols run.levels) run.bound.1 ⟨[], none⟩ members
      (resolveBases symbols (.ofLevels symbols run.levels) run.bound.1 ⟨[], none⟩ bases
        run.bound.2).2).1.properties
  | .typeAlias _ => []

variable {bases : List TypeExpr} {members : List Member}
  (isInterface : run.definition.body = .interface bases members)

include isInterface

theorem InstanceRun.length_copied : run.copied.length = bases.length := by
  rw [InstanceRun.copied, isInterface]
  exact length_copiedBases bases _

theorem InstanceRun.mem_names_own (name : String) :
    name ∈ run.own.map Property.name ↔ name ∈ memberNames members := by
  rw [InstanceRun.own, isInterface]
  dsimp only
  rw [mem_names_resolveMembers]
  simp

theorem InstanceRun.nodup_own : (run.own.map Property.name).Nodup := by
  have none : ((⟨[], .none⟩ : ObjectShape).properties.map Property.name).Nodup := List.nodup_nil
  rw [InstanceRun.own, isInterface]
  exact nodup_names_resolveMembers none members _

/-- The structure of an interface: the names of its bases as they were copied with its own members
put in. -/
theorem InstanceRun.body_interface : ∃ inherited index,
    run.body.1 = .object ⟨run.own.foldl upsertProperty inherited, index⟩ ∧
      ∀ name, name ∈ inherited.map Property.name ↔
        ∃ base ∈ run.copied, name ∈ base.seen.names base.type := by
  rw [InstanceRun.body, InstanceRun.own, InstanceRun.copied, isInterface]
  refine ⟨(resolveBases symbols (.ofLevels symbols run.levels) run.bound.1 ⟨[], none⟩ bases
    run.bound.2).1.properties, _, rfl, fun name => ?_⟩
  rw [mem_names_resolveBases]
  simp

/-- The moments at which bases are copied come before the end of the resolution. -/
theorem InstanceRun.copied_continue : ∀ base ∈ run.copied, base.seen.Continues run.body.2 := by
  have further := Deeper.keeps_ofLevels symbols watch run.levels
  have enough := run.bound_enough further
  have body := run.bound_clear
  rw [isInterface, clearBody] at body
  obtain ⟨first, others⟩ := Bool.and_eq_true_iff.mp body
  have copied := keeps_resolveBases further _ run.bound.1 ⟨[], none⟩ bases run.bound.2 enough first
  have still : symbols.room (resolveBases symbols (.ofLevels symbols run.levels) run.bound.1
      ⟨[], none⟩ bases run.bound.2).2 < run.levels := by
    rw [copied.grows.room_eq]
    exact enough
  have own := keeps_resolveMembers further _ run.bound.1 ⟨[], none⟩ members _ still others
  intro base inside
  rw [InstanceRun.copied, isInterface] at inside
  rw [InstanceRun.body, isInterface]
  exact (copiedBases_continue further ⟨[], none⟩ bases run.bound.2 enough first base inside).trans
    own.grows.continues

end Interface

/-- **What an interface inherits, exactly.** After any exports, an interface with its arguments has
its own members and the names that its bases had when they were copied, and its own members decide
where both have a name. So all properties that a base has in the end are inherited exactly when each
of them was there when some base was copied or is a member of the interface itself; and that is so for
every base that was finished when it was copied. -/
theorem interface_inherits_iff (symbols : Symbols) (names : List String) {declared : Instance}
    {id : TypeId} {parameters : List Parameter} {bases : List TypeExpr} {members : List Member}
    (found : (graphAfter symbols names .initial).instances.lookup declared = some id)
    (declares : symbols.type? declared.name = some ⟨parameters, .interface bases members⟩) :
    let final := graphAfter symbols names .initial
    ∃ run : InstanceRun symbols .none declared id,
      run.copied.length = bases.length ∧
      (∀ name, name ∈ final.names id ↔ name ∈ memberNames members ∨
        ∃ base ∈ run.copied, name ∈ base.seen.names base.type) ∧
      (∀ name ∈ memberNames members, ∃ property ∈ run.own,
        property.name = name ∧ final.property? id name = some property) ∧
      ∀ base ∈ run.copied, base.seen.Continues final ∧
        ((∀ name ∈ final.names base.type, name ∈ final.names id) ↔
          ∀ name ∈ final.names base.type, name ∈ memberNames members ∨
            ∃ other ∈ run.copied, name ∈ other.seen.names other.type) ∧
        (base.seen.knowsProperties base.type = true →
          ∀ name ∈ final.names base.type, name ∈ final.names id) := by
  intro final
  obtain ⟨grows, recorded⟩ := graphAfter_recorded symbols names
  rcases recorded.instances declared id found with pending | ⟨run, after, has⟩
  · exact absurd pending (grows.finished id)
  have isInterface : run.definition.body = .interface bases members := by
    have same : run.definition = ⟨parameters, .interface bases members⟩ :=
      Option.some.inj (run.declares.symm.trans declares)
    rw [same]
  obtain ⟨inherited, index, structure_, copies⟩ := run.body_interface isInterface
  have properties : final.properties id = run.own.foldl upsertProperty inherited := by
    rw [Graph.properties, Graph.propertiesWithin, has.kind_eq, structure_]
  have exactly : ∀ name, name ∈ final.names id ↔ name ∈ memberNames members ∨
      ∃ base ∈ run.copied, name ∈ base.seen.names base.type := by
    intro name
    rw [Graph.names, properties, mem_names_foldl_upsertProperty, copies,
      run.mem_names_own isInterface, or_comm]
  refine ⟨run, run.length_copied isInterface, exactly, ?_, fun base inside => ?_⟩
  · intro name declaredName
    obtain ⟨property, member, rfl⟩ :=
      List.mem_map.mp ((run.mem_names_own isInterface name).mpr declaredName)
    refine ⟨property, member, rfl, ?_⟩
    rw [Graph.property?, properties]
    exact find?_foldl_upsertProperty (run.nodup_own isInterface) inherited member
  · have continues := (run.copied_continue isInterface base inside).trans after
    refine ⟨continues, forall₂_congr fun name _ => exactly name, fun known name member => ?_⟩
    rw [Graph.names, continues.properties_eq known] at member
    exact (exactly name).mpr (.inr ⟨base, inside, member⟩)

/-- An interface and its base, whose member mentions the interface. -/
def mutualInterfaces : Symbols := .ofItems
  [.interface "B" [] [] [.property "a" false (.reference "A" []),
      .property "y" false (.keyword .string)] false,
    .interface "A" [] [.reference "B" []] [.property "x" false (.keyword .string)] false,
    .value "b" (.reference "B" []) true,
    .value "a" (.reference "A" []) true]

/-- Where the base is resolved first, the interface is resolved within it and inherits nothing. -/
theorem mutualInterfaces_inherit_nothing :
    let final := graphAfter mutualInterfaces ["b", "a"] .initial
    final.instances.lookup ⟨"B", []⟩ = some 1 ∧ final.instances.lookup ⟨"A", []⟩ = some 2 ∧
      ¬∀ name ∈ final.names 1, name ∈ final.names 2 := by
  decide

/-- The interface has copied its one base at some moment of that run. -/
theorem mutualInterfaces_copy_base :
    ∃ run : InstanceRun mutualInterfaces .none ⟨"A", []⟩ 2, run.copied.length = 1 := by
  have found : (graphAfter mutualInterfaces ["b", "a"] .initial).instances.lookup ⟨"A", []⟩ =
      some 2 := by decide
  have declares : mutualInterfaces.type? "A" = some ⟨[], .interface [.reference "B" []]
      [.property "x" false (.keyword .string)]⟩ := rfl
  obtain ⟨run, copied, _⟩ := interface_inherits_iff mutualInterfaces ["b", "a"] found declares
  exact ⟨run, copied⟩

end SwiftBindings.TypeGraph
