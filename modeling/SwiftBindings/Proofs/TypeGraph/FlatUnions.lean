/-
**Unions within unions.**

A union takes in the alternatives of its members when it is resolved. A declared type that is still
unfinished shows no alternatives, so it becomes an alternative itself, and it may turn out to be a union
later. This is the only way in which a union comes to stand in a union: neither an alias that copies the
alternatives of another union nor the removal of null and undefined adds to it.

**The main statement.** `nested_unions_iff`: after any exports, a union stands in a union exactly where
there was a run of its own in which it became an alternative while it was unfinished
(`InstanceRun.Nests`). Where no alternative of a union has such a run, all types inside it are its own
alternatives, and its validator admits null and absent values exactly where one of them is such a value.
-/

import SwiftBindings.Proofs.Reduction.DeclaredFields
import SwiftBindings.Proofs.TypeGraph.Reached

namespace SwiftBindings.TypeGraph

open Declared Reduction

/-- The type is a union. -/
def Graph.IsUnion (graph : Graph) (id : TypeId) : Prop :=
  ∃ members, graph.kind id = .union members

/-- A run of a declared type that lies before a graph, in which the type became an alternative while it
was unfinished and got the structure of a union in the end. -/
structure InstanceRun.Nests {symbols : Symbols} {declared : Instance} {id : TypeId}
    (run : InstanceRun symbols .none declared id) (start graph : Graph) : Prop where
  begun : Reached symbols start
  free : start.instances.lookup declared = none
  starts : run.StartsIn start
  within : Reached symbols run.body.2
  unfinished : run.body.2.kind id = .pending
  joined : run.body.2.IsAlternative id
  union : ∃ members, run.body.1 = .union members
  later : run.after.Continues graph

/-- Some such run lies before the graph. -/
def Graph.JoinedUnfinished (symbols : Symbols) (graph : Graph) (id : TypeId) : Prop :=
  ∃ (declared : Instance) (run : InstanceRun symbols .none declared id) (start : Graph),
    run.Nests start graph

section Nests

variable {symbols : Symbols} {graph after : Graph} {declared : Instance} {id : TypeId}
  {run : InstanceRun symbols .none declared id}

theorem Graph.JoinedUnfinished.later (joined : graph.JoinedUnfinished symbols id)
    (continues : graph.Continues after) : after.JoinedUnfinished symbols id := by
  obtain ⟨declared, run, start, nests⟩ := joined
  exact ⟨declared, run, start, { nests with later := nests.later.trans continues }⟩

/-- Such a run leaves a union within a union. -/
theorem Graph.JoinedUnfinished.nested (joined : graph.JoinedUnfinished symbols id) :
    graph.IsUnion id ∧ graph.IsAlternative id := by
  obtain ⟨declared, run, start, nests⟩ := joined
  have stands := nests.starts.standsIn nests.later
  obtain ⟨members, union⟩ := nests.union
  exact ⟨⟨members, stands.has.kind_eq.trans union⟩, nests.joined.later stands.later⟩

/-- The node of a declared type is unfinished when its body is resolved. -/
theorem InstanceRun.StartsIn.unfinished {start : Graph} (starts : run.StartsIn start) :
    run.body.2.HasKind id .pending := by
  have entered : (enterInstance declared start).2.HasKind start.nodes.size .pending :=
    enterInstance_hasKind declared
  rw [← starts.place] at entered
  exact starts.body_grows.hasKind entered

/-- An alias that becomes a union has copied another one. -/
theorem InstanceRun.exists_union {members : List TypeId} (union : run.body.1 = .union members) :
    ∃ target, target ≠ id ∧ run.body.2.kind target = .union members := by
  cases body : run.definition.body with
  | interface bases own =>
    rw [InstanceRun.body, body] at union
    cases union
  | typeAlias type =>
    rw [InstanceRun.body, body] at union ⊢
    let target := resolve symbols (.ofLevels symbols run.levels) run.bound.1 type run.bound.2
    have copied : target.2.aliasKind id target.1 = .union members := union
    rw [Graph.aliasKind] at copied
    split at copied
    · cases copied
    · rename_i other
      split at copied
      · cases copied
      · exact ⟨target.1, other, copied⟩

/-- The alternatives that stand after a run stood before the type got its structure. -/
theorem isAlternative_of_after {other : TypeId} (alternative : run.after.IsAlternative other)
    (unfinished : run.body.2.HasKind id .pending) : run.body.2.IsAlternative other := by
  obtain ⟨union, members, kind, member⟩ := alternative
  by_cases own : union = id
  · subst own
    have copied : run.body.1 = .union members :=
      (leaveInstance_hasKind unfinished).kind_eq.symm.trans kind
    obtain ⟨target, _, found⟩ := run.exists_union copied
    exact ⟨target, members, found, member⟩
  · have before : run.body.2.kind union = .union members :=
      (leaveInstance_kind_of_ne own).symm.trans kind
    exact ⟨union, members, before, member⟩

end Nests

/-- Where all unions were unions of the same alternatives before, so were the unions within unions. -/
theorem Graph.nested_of_kind {before after : Graph}
    (old : ∀ id members, after.kind id = .union members → before.kind id = .union members)
    {id : TypeId} (union : after.IsUnion id) (alternative : after.IsAlternative id) :
    before.IsUnion id ∧ before.IsAlternative id := by
  obtain ⟨members, kind⟩ := union
  obtain ⟨outer, others, found, member⟩ := alternative
  exact ⟨⟨members, old id members kind⟩, outer, others, old outer others found, member⟩

/-- A new node is no alternative, and the old types that it takes in were no unions, or were
alternatives before. -/
theorem Graph.nested_of_allocate {graph : Graph} (closed : graph.Closed) {kind : Kind}
    (parts : graph.Holds kind.parts)
    (joins : ∀ members, kind = .union members → ∀ member ∈ members, graph.MayJoin member)
    {text : String} {id : TypeId} (union : (allocate kind text graph).2.IsUnion id)
    (alternative : (allocate kind text graph).2.IsAlternative id) :
    graph.IsUnion id ∧ graph.IsAlternative id := by
  obtain ⟨outer, others, found, member⟩ := alternative
  have inside : id < graph.nodes.size := by
    rw [kind_allocate] at found
    split at found
    · subst found
      exact parts id member
    · refine closed.part_lt outer ?_
      rw [found]
      exact member
  obtain ⟨members, own⟩ := union
  rw [kind_allocate, if_neg (Nat.ne_of_lt inside)] at own
  refine ⟨⟨members, own⟩, ?_⟩
  rw [kind_allocate] at found
  split at found
  · exact joins others found id member members own
  · exact ⟨outer, others, found, member⟩

/-- A new node without parts brings no union. -/
theorem Graph.nested_of_leaf {graph : Graph} (closed : graph.Closed) {kind : Kind}
    (alone : kind.parts = []) (other : ∀ members, kind ≠ .union members) {text : String} {id : TypeId}
    (union : (allocate kind text graph).2.IsUnion id)
    (alternative : (allocate kind text graph).2.IsAlternative id) :
    graph.IsUnion id ∧ graph.IsAlternative id := by
  have parts : graph.Holds kind.parts := by
    rw [alone]
    exact fun _ member => absurd member List.not_mem_nil
  exact Graph.nested_of_allocate closed parts (fun members same => absurd same (other members)) union
    alternative

/-- **A union within a union became an alternative while it was unfinished.** Each small step either
keeps the unions as they are, or adds one of types that may join it, or finishes a declared type. -/
theorem Reached.joinedUnfinished {symbols : Symbols} {graph : Graph} (reached : Reached symbols graph)
    {id : TypeId} (union : graph.IsUnion id) (alternative : graph.IsAlternative id) :
    graph.JoinedUnfinished symbols id := by
  induction reached with
  | initial =>
    obtain ⟨outer, others, found, _⟩ := alternative
    cases outer <;> cases found
  | add before known parts joins text ih =>
    obtain ⟨was, stood⟩ := Graph.nested_of_allocate before.grounded.toClosed parts joins union alternative
    exact (ih was stood).later (allocate_grows known text _).continues
  | @keyword graph before keyword ih =>
    cases known : graph.keywords.lookup keyword with
    | some _ =>
      rw [keywordType_of_some known] at union alternative ⊢
      exact ih union alternative
    | none =>
      rw [keywordType_of_none known] at union alternative ⊢
      have leaf : (Kind.primitive keyword).parts = [] := rfl
      obtain ⟨was, stood⟩ := Graph.nested_of_leaf before.grounded.toClosed leaf
        (fun _ => Kind.noConfusion) union alternative
      exact (ih was stood).later (keyword_grows known).continues
  | @literal graph before value ih =>
    cases known : graph.literals.lookup value with
    | some _ =>
      rw [stringLiteralType_of_some known] at union alternative ⊢
      exact ih union alternative
    | none =>
      rw [stringLiteralType_of_none known] at union alternative ⊢
      have leaf : (Kind.stringLiteral value).parts = [] := rfl
      obtain ⟨was, stood⟩ := Graph.nested_of_leaf before.grounded.toClosed leaf
        (fun _ => Kind.noConfusion) union alternative
      exact (ih was stood).later (literal_grows known).continues
  | enter before free inside ih =>
    obtain ⟨was, stood⟩ := Graph.nested_of_kind (fun id members kind => by
      rw [enterInstance_kind] at kind
      split at kind
      · cases kind
      · exact kind) union alternative
    exact (ih was stood).later (enterInstance_continues _ free)
  | @leave start declared own run starts before free within parts _ ih =>
    have unfinished := starts.unfinished
    have joined := isAlternative_of_after alternative unfinished
    have later : run.body.2.Continues run.after := leaveInstance_continues unfinished
    obtain ⟨members, kind⟩ := union
    by_cases same : id = own
    · subst same
      exact ⟨declared, run, start, {
        begun := before
        free := free
        starts := starts
        within := within
        unfinished := unfinished.kind_eq
        joined := joined
        union := ⟨members, (leaveInstance_hasKind unfinished).kind_eq.symm.trans kind⟩
        later := .refl _ }⟩
    · have was : run.body.2.kind id = .union members :=
        (leaveInstance_kind_of_ne same).symm.trans kind
      exact (ih ⟨members, was⟩ joined).later later
  | @start graph before name ih =>
    exact (ih union alternative).later { Graph.Continues.refl graph with }
  | finish before free inside ih =>
    exact (ih union alternative).later (leaveValue_continues _ free)

/-! ### Flat unions -/

/-- The second type is reached from the first one through unions. -/
inductive Graph.Inside (graph : Graph) (outer : TypeId) : TypeId → Prop where
  /-- An alternative. -/
  | direct {members : List TypeId} {member : TypeId} (kind : graph.kind outer = .union members)
    (inside : member ∈ members) : Inside graph outer member
  /-- An alternative of a union that is reached. -/
  | further {middle : TypeId} {members : List TypeId} {member : TypeId}
    (reached : Inside graph outer middle) (kind : graph.kind middle = .union members)
    (inside : member ∈ members) : Inside graph outer member

section Flat

variable {graph : Graph} {id : TypeId} {members : List TypeId}
  (kind : graph.kind id = .union members) (flat : ∀ member ∈ members, ¬graph.IsUnion member)

include kind flat

/-- All that is reached in a flat union is an alternative of it. -/
theorem Graph.Inside.mem_of_flat {leaf : TypeId} (inside : graph.Inside id leaf) : leaf ∈ members := by
  induction inside with
  | direct own member =>
    rw [kind] at own
    cases own
    exact member
  | further _ nested _ ih => exact absurd ⟨_, nested⟩ (flat _ ih)

theorem Graph.any_members_iff {test : TypeId → Bool} :
    members.any test = true ↔ ∃ leaf, graph.Inside id leaf ∧ test leaf = true := by
  rw [List.any_eq_true]
  constructor
  · rintro ⟨leaf, member, holds⟩
    exact ⟨leaf, .direct kind member, holds⟩
  · rintro ⟨leaf, inside, holds⟩
    exact ⟨leaf, inside.mem_of_flat kind flat, holds⟩

end Flat

section Flags

variable {graph : Graph} {reduce : TypeId → Visit Validator} {id : TypeId} {trail : Trail}

theorem nullable_atom (valued : isNull (graph.kind id) = false) {validator : Validator}
    (atom : atomValidator? graph id = some validator) : validator.nullable = false := by
  rw [atomValidator?] at atom
  split at atom
  · cases atom
    rfl
  · split at atom
    · cases atom
      rfl
    · split at atom
      case h_1 null => rw [null] at valued; cases valued
      all_goals cases atom
      all_goals rfl

theorem nullable_unionValidator (members : List TypeId) :
    (unionValidator graph members).nullable = false := by
  obtain ⟨shape, same⟩ := unionValidator_eq_ofShape members
  rw [same]
  rfl

/-- A visit of a type that is no union and not null. -/
theorem nullable_reduceWithin_present (levels : Nat) (single : graph.unionMembers? id = none)
    (valued : isNull (graph.kind id) = false) :
    (reduceWithin graph levels id trail).1.nullable = false := by
  rcases reduceWithin_single_cases levels single with ⟨validator, atom, same⟩ | ⟨shape, same⟩
  · rw [same]
    exact nullable_atom valued atom
  · rw [same]
    rfl

/-- What is present in a union. -/
theorem present_iff {members : List TypeId} {member : TypeId} :
    member ∈ members.filter (fun member =>
        !isAbsence (graph.kind member) && !isNull (graph.kind member)) ↔
      member ∈ members ∧ isAbsence (graph.kind member) = false ∧ isNull (graph.kind member) = false := by
  simp

/-- **The validator of a flat union** admits null and absent values as its alternatives do. -/
theorem reduce_flat_union {members : List TypeId} (kind : graph.kind id = .union members)
    (flat : ∀ member ∈ members, ¬graph.IsUnion member) :
    (Reduction.reduce graph id).nullable = (members.any fun member => isNull (graph.kind member)) ∧
      (Reduction.reduce graph id).optional =
        members.any fun member => isAbsence (graph.kind member) := by
  have found : graph.unionMembers? id = some members := by rw [Graph.unionMembers?, kind]
  have shallow : Trail.empty.depth < maximalNesting := by decide
  have new : id ∉ Trail.empty.chain := List.not_mem_nil
  rw [Reduction.reduce, reduceOn, reduceWithin_succ _ shallow new]
  dsimp only
  generalize present : members.filter (fun member =>
    !isAbsence (graph.kind member) && !isNull (graph.kind member)) = left
  rcases left with _ | ⟨single, _ | ⟨second, rest⟩⟩
  · rw [classify_union_none found present]
    exact ⟨rfl, rfl⟩
  · have kept : single ∈ [single] := List.mem_singleton_self single
    rw [← present, present_iff] at kept
    obtain ⟨inside, absent, valued⟩ := kept
    have alone : graph.unionMembers? single = none := by
      cases nested : graph.unionMembers? single with
      | none => rfl
      | some others => exact absurd ⟨others, Graph.kind_eq_union nested⟩ (flat single inside)
    rw [classify_union_one found present]
    constructor
    · show ((reduceWithin graph maximalNesting single _).1.nullable || _) = _
      rw [nullable_reduceWithin_present _ alone valued, Bool.false_or]
    · show ((reduceWithin graph maximalNesting single _).1.optional || _) = _
      rw [optional_reduceWithin_present _ alone absent, Bool.false_or]
  · rw [classify_union_many found present (by simp)]
    constructor
    · show ((unionValidator graph _).nullable || _) = _
      rw [nullable_unionValidator, Bool.false_or]
    · show ((unionValidator graph _).optional || _) = _
      rw [optional_unionValidator, Bool.false_or]

end Flags

/-- **Where unions are flat, exactly.** After any exports, a union stands in a union exactly where some
run of it made it an alternative while it was unfinished. A union none of whose alternatives has such a
run is flat: all types inside it, through unions of any depth, are its own alternatives, and its
validator admits null exactly where null is inside it, and the absent value exactly where undefined or
void is. -/
theorem nested_unions_iff (symbols : Symbols) (names : List String) :
    let final := graphAfter symbols names .initial
    (∀ id, final.IsUnion id ∧ final.IsAlternative id ↔ final.JoinedUnfinished symbols id) ∧
      ∀ id members, final.kind id = .union members →
        (∀ member ∈ members, ¬final.JoinedUnfinished symbols member) →
          (∀ leaf, final.Inside id leaf → leaf ∈ members ∧ ¬final.IsUnion leaf) ∧
          ((reduce final id).nullable = true ↔
            ∃ leaf, final.Inside id leaf ∧ isNull (final.kind leaf) = true) ∧
          ((reduce final id).optional = true ↔
            ∃ leaf, final.Inside id leaf ∧ isAbsence (final.kind leaf) = true) := by
  intro final
  have reached : Reached symbols final := reached_graphAfter symbols names .initial
  refine ⟨fun id => ⟨fun nested => reached.joinedUnfinished nested.1 nested.2,
    Graph.JoinedUnfinished.nested⟩, fun id members kind finished => ?_⟩
  have flat : ∀ member ∈ members, ¬final.IsUnion member := fun member inside union =>
    finished member inside (reached.joinedUnfinished union ⟨id, members, kind, inside⟩)
  obtain ⟨nullable, optional⟩ := reduce_flat_union kind flat
  refine ⟨fun leaf inside => ?_, ?_, ?_⟩
  · have member := inside.mem_of_flat kind flat
    exact ⟨member, flat leaf member⟩
  · rw [nullable]
    exact Graph.any_members_iff kind flat
  · rw [optional]
    exact Graph.any_members_iff kind flat

/-- Two aliases that stand in each other's unions. -/
def mutualUnions : Symbols := .ofItems
  [.typeAlias "A" [] (.union [.keyword .null, .array (.reference "B" [])]) false,
    .typeAlias "B" [] (.union [.reference "A" [], .keyword .number]) false,
    .value "a" (.reference "A" []) true,
    .value "b" (.reference "B" []) true]

/-- The second alias takes in the first one while it is unfinished. So the first one, a union with null,
is an alternative of the second, whose validator does not admit null. -/
theorem mutualUnions_nest :
    let final := graphAfter mutualUnions ["a", "b"] .initial
    final.instances.lookup ⟨"A", []⟩ = some 1 ∧ final.instances.lookup ⟨"B", []⟩ = some 3 ∧
      ¬(∀ id, final.IsUnion id → ¬final.IsAlternative id) ∧
      (∃ leaf, final.Inside 3 leaf ∧ isNull (final.kind leaf) = true) ∧
      (reduce final 3).nullable = false := by
  intro final
  have inner : final.kind 1 = .union [2, 6] := by decide
  have outer : final.kind 3 = .union [1, 4] := by decide
  have alternative : final.IsAlternative 1 := ⟨3, [1, 4], outer, by decide⟩
  have within : final.Inside 3 2 :=
    .further (.direct outer List.mem_cons_self) inner List.mem_cons_self
  exact ⟨by decide, by decide, fun flat => flat 1 ⟨[2, 6], inner⟩ alternative,
    ⟨2, within, by decide⟩, by decide +kernel⟩

end SwiftBindings.TypeGraph
