/-
**Reductions under other places.**

A type is reduced to the same validator at whatever place it stands: the reduction of a graph and that of
a renaming of it go in step as long as their trails hold the same types (`reduceWithin_rename`). Where only
the structures of two types are the same, and their texts tell the same table, the validators differ at
most in the text of an unknown value (`classify_rename`).

`nextTypes` lists the types that the reduction of a type goes on to. A trail can only make a difference
where a type contains itself through such parts (`ContainsItself`).
-/

import Mathlib.Logic.Relation
import SwiftBindings.Proofs.Reduction.Visits
import SwiftBindings.Proofs.TypeGraph.Renaming

namespace SwiftBindings

/-- The second validator is the first, but where that is an unknown value with the first text, it may
have the second one instead. -/
def Validator.SameBut (text text' : String) (validator validator' : Validator) : Prop :=
  validator' = validator ∨ ∃ gap optional nullable,
    validator = ⟨.unknown text gap, optional, nullable⟩ ∧
      validator' = ⟨.unknown text' gap, optional, nullable⟩

namespace Reduction

open Declared TypeGraph

section SameBut

variable {text text' : String} {validator validator' : Validator}

theorem sameBut_refl (text text' : String) (validator : Validator) :
    validator.SameBut text text' validator :=
  .inl rfl

theorem sameBut_ofGap (text text' : String) (gap : Gap) :
    (Validator.ofGap text gap).SameBut text text' (.ofGap text' gap) :=
  .inr ⟨gap, false, false, rfl, rfl⟩

theorem sameBut_admitting (same : validator.SameBut text text' validator') (optional nullable : Bool) :
    (validator.admitting optional nullable).SameBut text text' (validator'.admitting optional nullable) := by
  rcases same with rfl | ⟨gap, absent, null, rfl, rfl⟩
  · exact .inl rfl
  · exact .inr ⟨gap, absent || optional, null || nullable, rfl, rfl⟩

theorem eq_of_sameBut (same : validator.SameBut text text validator') : validator' = validator := by
  rcases same with rfl | ⟨gap, absent, null, rfl, rfl⟩
  · rfl
  · rfl

end SameBut

/-! ### Types that a reduction goes on to -/

/-- The alternatives that are neither null nor absent. -/
def presentMembers (graph : Graph) (members : List TypeId) : List TypeId :=
  members.filter fun member => !isAbsence (graph.kind member) && !isNull (graph.kind member)

/-- The types that the reduction of a type goes on to. -/
def nextTypes (graph : Graph) (id : TypeId) : List TypeId :=
  match graph.unionMembers? id with
  | some members =>
    match presentMembers graph members with
    | [single] => [single]
    | _ => []
  | none =>
    match atomValidator? graph id with
    | some _ => []
    | none =>
      match graph.arrayElement? id with
      | some element => [element]
      | none =>
        match graph.index? id with
        | some value => [value]
        | none => (fieldProperties graph id).map Property.type

/-- The reduction of the type comes to the type again. -/
def ContainsItself (graph : Graph) (id : TypeId) : Prop :=
  Relation.TransGen (fun outer inner => inner ∈ nextTypes graph outer) id id

/-- A type does not contain itself if there are types that its reduction stays among. -/
theorem not_containsItself {graph : Graph} {id : TypeId} (among : List TypeId) (outside : id ∉ among)
    (first : ∀ next ∈ nextTypes graph id, next ∈ among)
    (closed : ∀ inner ∈ among, ∀ next ∈ nextTypes graph inner, next ∈ among) :
    ¬ContainsItself graph id := by
  intro contains
  have stays : ∀ last, Relation.TransGen (fun outer inner => inner ∈ nextTypes graph outer) id last →
      last ∈ among := by
    intro last reaches
    induction reaches with
    | single next => exact first _ next
    | tail _ next ih => exact closed _ ih _ next
  exact outside (stays id contains)

/-! ### Structures -/

section Kinds

variable (place : TypeId → TypeId) (kind : Kind)

theorem isAbsence_rename : isAbsence (kind.rename place) = isAbsence kind := by
  simp only [isAbsence, beq_eq_decide, Kind.rename_eq_primitive_iff]

theorem isNull_rename : isNull (kind.rename place) = isNull kind := by
  simp only [isNull, beq_eq_decide, Kind.rename_eq_primitive_iff]

theorem literalValue?_rename : literalValue? (kind.rename place) = literalValue? kind := by
  cases kind <;> rfl

theorem isBooleanLike_rename : isBooleanLike (kind.rename place) = isBooleanLike kind := by
  cases kind <;> rfl

theorem isStringLike_rename : isStringLike (kind.rename place) = isStringLike kind := by
  cases kind <;> rfl

theorem primitiveShape?_rename : primitiveShape? (kind.rename place) = primitiveShape? kind := by
  cases kind <;> rfl

end Kinds

/-! ### Brands -/

section ButUnions

variable {place : TypeId → TypeId} {graph other : Graph} (renames : graph.RenamesButUnions place other)

include renames

theorem stringValue?_butUnions (id : TypeId) :
    other.stringValue? (place id) = graph.stringValue? id := by
  rcases renames.kind id with same | ⟨_, _, union, union'⟩
  · exact stringValue?_rename same
  · rw [Graph.stringValue?, Graph.stringValue?, union, union']

theorem isKeyword_butUnions (keyword : Keyword) (id : TypeId) :
    (other.kind (place id) == .primitive keyword) = (graph.kind id == .primitive keyword) := by
  rcases renames.kind id with same | ⟨_, _, union, union'⟩
  · rw [same]
    simp only [beq_eq_decide, Kind.rename_eq_primitive_iff]
  · rw [union, union']
    rfl

theorem partTable?_butUnions (part : TypeId) :
    partTable? other (place part) = partTable? graph part := by
  rcases renames.kind part with same | ⟨_, _, union, union'⟩
  · rw [partTable?, partTable?, same]
    cases graph.kind part with
    | object shape =>
      show ((shape.properties.map (Property.rename place)).find? _).map _ = _
      rw [List.find?_map, Option.map_map]
      refine congrArg (fun value : Property → Option String =>
        (shape.properties.find? fun property => property.name == brandName).map value) ?_
      exact funext fun property => stringValue?_butUnions renames property.type
    | _ => rfl
  · rw [partTable?, partTable?, union, union']

theorem brandedTable?_butUnions {first second : TypeId}
    (same : graph.SameUnder place other first second) :
    brandedTable? other second = brandedTable? graph first := by
  rw [brandedTable?, brandedTable?, same]
  cases graph.kind first with
  | intersection parts =>
    have strings : (parts.map place).any (fun part => other.kind part == .primitive .string) =
        parts.any fun part => graph.kind part == .primitive .string := by
      rw [List.any_map]
      exact congrArg (List.any parts) (funext fun part => isKeyword_butUnions renames .string part)
    have brands : (parts.map place).findSome? (partTable? other) =
        parts.findSome? (partTable? graph) := by
      rw [List.findSome?_map]
      exact congrArg (fun table => parts.findSome? table) (funext (partTable?_butUnions renames))
    rw [Kind.rename]
    dsimp only
    rw [strings, brands]
  | _ => rfl

end ButUnions

section Rename

variable {place : TypeId → TypeId} {graph other : Graph} (renames : graph.Renames place other)

include renames

theorem presentMembers_rename (members : List TypeId) :
    presentMembers other (members.map place) = (presentMembers graph members).map place :=
  filter_kind_rename renames (fun kind => !isAbsence kind && !isNull kind)
    (fun kind => by rw [isAbsence_rename, isNull_rename]) members

theorem any_rename (test : Kind → Bool) (same : ∀ kind : Kind, test (kind.rename place) = test kind)
    (members : List TypeId) :
    (members.map place).any (fun member => test (other.kind member)) =
      members.any fun member => test (graph.kind member) := by
  rw [List.any_map]
  refine congrArg (List.any members) (funext fun member => ?_)
  rw [Function.comp_apply, renames.kind member, same]

theorem unionValidator_rename (members : List TypeId) :
    unionValidator other (members.map place) = unionValidator graph members := by
  have kinds : (members.map place).map other.kind = (members.map graph.kind).map (Kind.rename place) := by
    rw [List.map_map, List.map_map]
    exact List.map_congr_left fun member _ => renames.kind member
  have texts : (members.map place).map other.text = members.map graph.text := by
    rw [List.map_map]
    exact List.map_congr_left fun member _ => renames.text member
  have literals : literalValues? ((members.map graph.kind).map (Kind.rename place)) =
      literalValues? (members.map graph.kind) := by
    rw [literalValues?, literalValues?, List.mapM_map]
    refine congrArg (Option.map List.eraseDups)
      (congrArg (fun value : Kind → Option String => (members.map graph.kind).mapM value) ?_)
    exact funext fun kind => literalValue?_rename place kind
  have all_same : ∀ test : Kind → Bool, (∀ kind : Kind, test (kind.rename place) = test kind) →
      ((members.map graph.kind).map (Kind.rename place)).all test =
        (members.map graph.kind).all test := by
    intro test same
    rw [List.all_map]
    exact congrArg (List.all _) (funext same)
  rw [unionValidator, unionValidator, kinds, texts]
  rw [all_same _ (isBooleanLike_rename place), all_same _ (isStringLike_rename place), literals]

/-! ### Identifiers -/

theorem brandedTable?_rename {first second : TypeId} (same : graph.SameUnder place other first second) :
    brandedTable? other second = brandedTable? graph first :=
  brandedTable?_butUnions renames.butUnions same

theorem identifierTable?_rename (id : TypeId) :
    identifierTable? other (place id) = identifierTable? graph id := by
  rw [identifierTable?, identifierTable?, renames.text, brandedTable?_rename renames (renames.kind id)]

/-! ### Single types -/

section Single

variable {first second : TypeId} (same : graph.SameUnder place other first second)

include same

theorem fieldProperties_rename :
    fieldProperties other second = (fieldProperties graph first).map (Property.rename place) := by
  rw [fieldProperties, fieldProperties, properties_rename renames same, List.filter_map]
  rfl

omit renames in
theorem atomValidator?_rename (table : identifierTable? other second = identifierTable? graph first) :
    Option.Rel (Validator.SameBut (graph.text first) (other.text second)) (atomValidator? graph first)
      (atomValidator? other second) := by
  rw [atomValidator?, atomValidator?, table, same, primitiveShape?_rename]
  cases identifierTable? graph first with
  | some found => exact .some (sameBut_refl _ _ _)
  | none =>
    cases shape : primitiveShape? (graph.kind first) with
    | some found => exact .some (sameBut_refl _ _ _)
    | none =>
      have gaps := sameBut_ofGap (graph.text first) (other.text second)
      cases kind : graph.kind first with
      | primitive keyword =>
        cases keyword with
        | null => exact .some (sameBut_admitting (gaps .nullOnly) false true)
        | undefined => exact .some (sameBut_admitting (gaps .nullOnly) true false)
        | void => exact .some (sameBut_admitting (gaps .nullOnly) true false)
        | _ => exact .some (gaps .unclassified)
      | tuple elements => exact .some (gaps .unclassified)
      | opaqueType => exact .some (gaps .unclassified)
      | _ => exact .none

/-- The part is reduced to the same validator at both places, and both trails are left as they
were. -/
def ReducesAlike (place : TypeId → TypeId) (reduce reduce' : TypeId → Visit Validator)
    (trail trail' : Trail) (part : TypeId) : Prop :=
  ∃ validator, reduce part trail = (validator, trail) ∧
    reduce' (place part) trail' = (validator, trail')

variable {reduce reduce' : TypeId → Visit Validator} {trail trail' : Trail}

omit renames same in
theorem reduceFields_rename {properties : List Property}
    (alike : ∀ property ∈ properties, ReducesAlike place reduce reduce' trail trail' property.type) :
    ∃ fields, reduceFields reduce properties trail = (fields, trail) ∧
      reduceFields reduce' (properties.map (Property.rename place)) trail' = (fields, trail') := by
  induction properties with
  | nil => exact ⟨[], rfl, rfl⟩
  | cons property rest ih =>
    obtain ⟨head, tail⟩ := List.forall_mem_cons.mp alike
    obtain ⟨validator, reduced, reduced'⟩ := head
    obtain ⟨fields, declared, declared'⟩ := ih tail
    exact ⟨_, reduceFields_cons reduced declared, reduceFields_cons reduced' declared'⟩

/-- Lists, mappings and objects are classified alike, if their parts are reduced alike. -/
theorem classifySingle_rename_parts (atom : atomValidator? graph first = none)
    (atom' : atomValidator? other second = none) (single : graph.unionMembers? first = none)
    (alike : ∀ part ∈ nextTypes graph first, ReducesAlike place reduce reduce' trail trail' part) :
    ∃ validator validator', classifySingle graph reduce first trail = (validator, trail) ∧
      classifySingle other reduce' second trail' = (validator', trail') ∧
        validator.SameBut (graph.text first) (other.text second) validator' := by
  have list := arrayElement?_rename same
  have index := index?_rename renames same
  have properties := fieldProperties_rename renames same
  rw [nextTypes, single, atom] at alike
  dsimp only at alike
  cases held : graph.arrayElement? first with
  | some element =>
    rw [held] at alike list
    obtain ⟨validator, reduced, reduced'⟩ := alike element (List.mem_singleton_self _)
    rw [classifySingle_array atom held, classifySingle_array atom' list, reduced, reduced']
    exact ⟨_, _, rfl, rfl, sameBut_refl _ _ _⟩
  | none =>
    rw [held] at alike list
    dsimp only at alike
    cases indexed : graph.index? first with
    | some value =>
      rw [indexed] at alike index
      obtain ⟨validator, reduced, reduced'⟩ := alike value (List.mem_singleton_self _)
      rw [classifySingle_record atom held indexed, classifySingle_record atom' list index, reduced,
        reduced']
      exact ⟨_, _, rfl, rfl, sameBut_refl _ _ _⟩
    | none =>
      rw [indexed] at alike index
      dsimp only at alike
      by_cases absent : fieldProperties graph first = []
      · rw [absent] at properties
        rw [classifySingle_empty atom held indexed absent,
          classifySingle_empty atom' list index properties]
        exact ⟨_, _, rfl, rfl, sameBut_ofGap _ _ _⟩
      · obtain ⟨fields, declared, declared'⟩ := reduceFields_rename
          fun property member => alike property.type (List.mem_map_of_mem member)
        have present : fieldProperties other second ≠ [] := by
          rw [properties]
          exact fun empty => absent (List.map_eq_nil_iff.mp empty)
        rw [classifySingle_object atom held indexed absent,
          classifySingle_object atom' list index present, properties, declared, declared']
        exact ⟨_, _, rfl, rfl, sameBut_refl _ _ _⟩

/-- **A type that is no union** is classified alike, if its parts are reduced alike. -/
theorem classifySingle_rename (table : identifierTable? other second = identifierTable? graph first)
    (single : graph.unionMembers? first = none)
    (alike : ∀ part ∈ nextTypes graph first, ReducesAlike place reduce reduce' trail trail' part) :
    ∃ validator validator', classifySingle graph reduce first trail = (validator, trail) ∧
      classifySingle other reduce' second trail' = (validator', trail') ∧
        validator.SameBut (graph.text first) (other.text second) validator' := by
  have atoms := atomValidator?_rename same table
  cases atom : atomValidator? graph first with
  | some validator =>
    cases atom' : atomValidator? other second with
    | none =>
      rw [atom, atom'] at atoms
      exact absurd atoms Option.not_rel_some_none
    | some validator' =>
      rw [atom, atom'] at atoms
      rw [classifySingle_atom atom, classifySingle_atom atom']
      exact ⟨validator, validator', rfl, rfl, Option.rel_some_some.mp atoms⟩
  | none =>
    cases atom' : atomValidator? other second with
    | none => exact classifySingle_rename_parts renames same atom atom' single alike
    | some _ =>
      rw [atom, atom'] at atoms
      exact absurd atoms Option.not_rel_none_some

end Single

/-! ### Types -/

section Visits

variable {reduce reduce' : TypeId → Visit Validator} {trail trail' : Trail} {first second : TypeId}

/-- **A type with the same structure** and the same table is classified alike, if its parts are reduced
alike: the validators differ at most in the text of an unknown value. -/
theorem classify_rename (same : graph.SameUnder place other first second)
    (table : graph.unionMembers? first = none →
      identifierTable? other second = identifierTable? graph first)
    (alike : ∀ part ∈ nextTypes graph first, ReducesAlike place reduce reduce' trail trail' part) :
    ∃ validator validator', classify graph reduce first trail = (validator, trail) ∧
      classify other reduce' second trail' = (validator', trail') ∧
        validator.SameBut (graph.text first) (other.text second) validator' := by
  have union := unionMembers?_rename same
  cases found : graph.unionMembers? first with
  | none =>
    rw [found] at union
    rw [classify_single found, classify_single union]
    exact classifySingle_rename renames same (table found) found alike
  | some members =>
    rw [found] at union
    have absence := any_rename renames isAbsence (isAbsence_rename place) members
    have null := any_rename renames isNull (isNull_rename place) members
    have present := presentMembers_rename renames members
    rw [nextTypes, found] at alike
    dsimp only at alike
    match left : presentMembers graph members with
    | [] =>
      rw [left] at present
      rw [classify_union_none found left, classify_union_none union present, absence, null]
      exact ⟨_, _, rfl, rfl, sameBut_admitting (sameBut_ofGap _ _ _) _ _⟩
    | [single] =>
      rw [left] at present alike
      obtain ⟨validator, reduced, reduced'⟩ := alike single (List.mem_singleton_self _)
      rw [classify_union_one found left, classify_union_one union present, absence, null, reduced,
        reduced']
      exact ⟨_, _, rfl, rfl, sameBut_refl _ _ _⟩
    | one :: two :: rest =>
      rw [left] at present
      have many : 2 ≤ (one :: two :: rest).length := Nat.le_add_left 2 _
      rw [classify_union_many found left many,
        classify_union_many union present (by rwa [List.length_map]), absence, null,
        unionValidator_rename renames]
      exact ⟨_, _, rfl, rfl, sameBut_refl _ _ _⟩

/-- Two trails of the same length hold the same of the given types. -/
structure Trail.Matches (place : TypeId → TypeId) (among : TypeId → Prop) (trail trail' : Trail) :
    Prop where
  depth : trail'.depth = trail.depth
  chain : ∀ id, among id → (place id ∈ trail'.chain ↔ id ∈ trail.chain)

omit renames in
theorem Trail.Matches.enter {among : TypeId → Prop} (injective : Function.Injective place)
    (matching : trail.Matches place among trail') (id : TypeId) :
    (trail.enter id).Matches place among (trail'.enter (place id)) where
  depth := congrArg (· + 1) matching.depth
  chain other member := by
    simp only [Trail.enter, List.mem_cons, injective.eq_iff, matching.chain other member]

/-- **A type is reduced to the same validator at its new place**, if the trails hold the same of the
types that its reduction can come to. -/
theorem reduceWithin_rename (injective : Function.Injective place) {among : TypeId → Prop}
    (closed : ∀ id, among id → ∀ next ∈ nextTypes graph id, among next) (levels : Nat) {id : TypeId}
    (member : among id) (matching : trail.Matches place among trail') :
    ReducesAlike place (reduceWithin graph levels) (reduceWithin other levels) trail trail' id := by
  induction levels generalizing id trail trail' with
  | zero => exact ⟨gapOf graph id .depthLimit, rfl, by rw [gapOf, ← renames.text]; rfl⟩
  | succ levels ih =>
    by_cases deep : maximalNesting ≤ trail.depth
    · refine ⟨gapOf graph id .depthLimit, reduceWithin_deep levels deep, ?_⟩
      rw [reduceWithin_deep levels (matching.depth ▸ deep), gapOf, renames.text]
      rfl
    · have shallow := Nat.lt_of_not_le deep
      have shallow' : trail'.depth < maximalNesting := matching.depth ▸ shallow
      by_cases met : id ∈ trail.chain
      · refine ⟨gapOf graph id .cycle, reduceWithin_cycle levels shallow met, ?_⟩
        rw [reduceWithin_cycle levels shallow' ((matching.chain id member).mpr met), gapOf,
          renames.text]
        rfl
      · have new : place id ∉ trail'.chain := fun held => met ((matching.chain id member).mp held)
        obtain ⟨validator, validator', classified, classified', same⟩ :=
          classify_rename renames (renames.kind id) (fun _ => identifierTable?_rename renames id)
            fun next part => ih (closed id member next part) (matching.enter injective id)
        rw [renames.text] at same
        refine ⟨validator, ?_, ?_⟩
        · rw [reduceWithin_succ levels shallow met, classified, Trail.leave_enter]
        · rw [reduceWithin_succ levels shallow' new, classified', eq_of_sameBut same,
            Trail.leave_enter]

/-- **A type that does not contain itself and another of the same structure** reduce to validators that
differ at most in the text of an unknown value. -/
theorem reduce_rename (injective : Function.Injective place)
    (same : graph.SameUnder place other first second)
    (table : graph.unionMembers? first = none →
      identifierTable? other second = identifierTable? graph first)
    (apart : ∀ id, place id ≠ second) (once : ¬ContainsItself graph first) :
    (Reduction.reduce graph first).SameBut (graph.text first) (other.text second)
      (Reduction.reduce other second) := by
  have matching : (Trail.empty.enter first).Matches place
      (Relation.TransGen (fun outer inner => inner ∈ nextTypes graph outer) first)
      (Trail.empty.enter second) :=
    { depth := rfl
      chain := fun id reached => by
        constructor
        · intro held
          exact absurd (List.mem_singleton.mp held) (apart id)
        · intro held
          rw [List.mem_singleton.mp held] at reached
          exact absurd reached once }
  obtain ⟨validator, validator', classified, classified', related⟩ :=
    classify_rename renames same table fun next part =>
      reduceWithin_rename renames injective (fun id reached inner step => reached.tail step)
        maximalNesting (.single part) matching
  have shallow : Trail.empty.depth < maximalNesting := by decide
  rw [Reduction.reduce, Reduction.reduce, reduceOn, reduceOn,
    reduceWithin_succ maximalNesting shallow List.not_mem_nil,
    reduceWithin_succ maximalNesting shallow List.not_mem_nil, classified, classified']
  exact related

end Visits

end Rename

end Reduction

end SwiftBindings
