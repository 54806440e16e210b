/-
**References below a type.**

`referencesWithin` lists the references to functions below a type with the names on the way to them. It
enters every namespace wherever it stands, so it ends by its number of levels alone. Where no namespace
stands within itself (`IsAcyclic`) the walk of discovery meets no namespace again, and answers the
functions of exactly these references (`functionsBelow_eq`).

What is below a type of a settled graph stays the same in all later graphs of the run, and so do the
functions below it (`functionsBelow_later`).
-/

import Mathlib.Logic.Relation
import SwiftBindings.Proofs.Api.Chains
import SwiftBindings.Proofs.TypeGraph.Inheritance
import SwiftBindings.Proofs.TypeGraph.Places

set_option linter.unusedSectionVars false

namespace SwiftBindings.TypeGraph

/-! ### What stays as it is -/

section Known

variable {earlier later : Graph} (continues : earlier.Continues later) {id : TypeId}

include continues

theorem Graph.Continues.property?_eq (known : earlier.knowsProperties id = true) (name : String) :
    later.property? id name = earlier.property? id name := by
  rw [Graph.property?, Graph.property?, continues.properties_eq known]

theorem Graph.Continues.isStructured_eq (known : earlier.isKnown id = true) :
    later.isStructured id = earlier.isStructured id := by
  rw [Graph.isStructured, Graph.isStructured, continues.kind_eq known]

theorem Graph.Continues.stringValue?_eq (known : earlier.isKnown id = true) :
    later.stringValue? id = earlier.stringValue? id := by
  rw [Graph.stringValue?, Graph.stringValue?, continues.kind_eq known]

theorem Graph.Continues.text_eq (known : earlier.isKnown id = true) :
    later.text id = earlier.text id := by
  obtain ⟨⟨text, found⟩, settled⟩ := Graph.isKnown_iff.mp known
  rw [Graph.text, Graph.text, found, continues.nodes id _ found settled]

theorem Graph.Continues.isMarkedReference_eq (known : earlier.knowsProperties id = true) :
    later.isMarkedReference id = earlier.isMarkedReference id := by
  simp only [Graph.isMarkedReference, continues.property?_eq known]

theorem Graph.Continues.literalProperty?_eq {name : String}
    (known : earlier.knowsProperty id name = true) :
    later.literalProperty? id name = earlier.literalProperty? id name := by
  obtain ⟨properties, type⟩ := Bool.and_eq_true_iff.mp known
  rw [Graph.literalProperty?, Graph.literalProperty?, continues.property?_eq properties]
  cases found : earlier.property? id name with
  | none => rfl
  | some property =>
    rw [found] at type
    exact continues.stringValue?_eq type

end Known

end SwiftBindings.TypeGraph

namespace SwiftBindings.Api

open Relation TypeGraph

theorem isFunctionReference_later {earlier later : Graph} (continues : earlier.Continues later)
    {id : TypeId} (known : earlier.knowsProperties id = true) :
    isFunctionReference later id = isFunctionReference earlier id := by
  simp only [isFunctionReference, continues.property?_eq known]

/-! ### References -/

/-- A reference to a function, with the names on the way to it. -/
abbrev Reference := List String × TypeId

/-- The reference from one step further out. -/
def Reference.under (name : String) (reference : Reference) : Reference :=
  (name :: reference.1, reference.2)

/-- The references below a type through at most the given number of levels. -/
def referencesWithin (graph : Graph) : Nat → TypeId → List Reference
  | 0, _ => []
  | levels + 1, id =>
    (graph.properties id).flatMap fun property =>
      (if isFunctionReference graph property.type then [([], property.type)]
        else if graph.isStructured property.type then referencesWithin graph levels property.type
        else []).map (Reference.under property.name)

/-- The references that a type holds: itself, or those below it where it is a namespace. -/
def referencesAt (graph : Graph) (levels : Nat) (id : TypeId) : List Reference :=
  if isFunctionReference graph id then [([], id)]
  else if graph.isStructured id then referencesWithin graph levels id
  else []

/-- The type is a namespace: it has properties, and is no reference to a function. -/
def IsNamespace (graph : Graph) (id : TypeId) : Prop :=
  graph.isStructured id = true ∧ isFunctionReference graph id = false

/-- The first type is a namespace with a property of the second type. -/
def Contains (graph : Graph) (outer inner : TypeId) : Prop :=
  IsNamespace graph outer ∧ ∃ property ∈ graph.properties outer, property.type = inner

/-- No namespace at or below the type stands within itself. -/
def IsAcyclic (graph : Graph) (id : TypeId) : Prop :=
  ∀ inner, ReflTransGen (Contains graph) id inner → ¬TransGen (Contains graph) inner inner

section References

variable {graph : Graph} {id : TypeId}

theorem referencesWithin_succ (graph : Graph) (levels : Nat) (id : TypeId) :
    referencesWithin graph (levels + 1) id = (graph.properties id).flatMap fun property =>
      (referencesAt graph levels property.type).map (Reference.under property.name) := rfl

theorem referencesAt_reference (refers : isFunctionReference graph id = true) (levels : Nat) :
    referencesAt graph levels id = [([], id)] := by
  rw [referencesAt, if_pos refers]

theorem referencesAt_namespace (space : IsNamespace graph id) (levels : Nat) :
    referencesAt graph levels id = referencesWithin graph levels id := by
  rw [referencesAt, space.2, if_neg Bool.false_ne_true, if_pos space.1]

theorem referencesAt_other (other : isFunctionReference graph id = false)
    (plain : graph.isStructured id = false) (levels : Nat) : referencesAt graph levels id = [] := by
  rw [referencesAt, other, plain, if_neg Bool.false_ne_true, if_neg Bool.false_ne_true]

theorem IsAcyclic.inside (acyclic : IsAcyclic graph id) {inner : TypeId}
    (contains : Contains graph id inner) : IsAcyclic graph inner :=
  fun other reached => acyclic other (.head contains reached)

/-- The references within fewer levels are those with fewer names. -/
theorem filter_referencesWithin (levels more : Nat) (id : TypeId) :
    (referencesWithin graph (levels + more) id).filter (fun reference =>
      decide (reference.1.length ≤ levels)) = referencesWithin graph levels id := by
  induction levels generalizing id with
  | zero =>
    refine List.filter_eq_nil_iff.mpr fun reference member => ?_
    cases more with
    | zero => cases member
    | succ more =>
      rw [Nat.zero_add, referencesWithin_succ] at member
      obtain ⟨property, _, inside⟩ := List.mem_flatMap.mp member
      obtain ⟨other, _, rfl⟩ := List.mem_map.mp inside
      exact fun short => absurd (of_decide_eq_true short) (Nat.not_succ_le_zero _)
  | succ levels ih =>
    rw [Nat.add_right_comm, referencesWithin_succ, referencesWithin_succ, List.filter_flatMap]
    refine List.flatMap_congr fun property _ => ?_
    rw [List.filter_map]
    have same : ((fun reference : Reference => decide (reference.1.length ≤ levels + 1)) ∘
        Reference.under property.name) = fun reference => decide (reference.1.length ≤ levels) :=
      funext fun reference => decide_eq_decide.mpr Nat.succ_le_succ_iff
    rw [same]
    refine congrArg (List.map (Reference.under property.name)) ?_
    by_cases refers : isFunctionReference graph property.type = true
    · rw [referencesAt_reference refers, referencesAt_reference refers]
      rfl
    · have other := Bool.eq_false_iff.mpr refers
      by_cases structured : graph.isStructured property.type = true
      · rw [referencesAt_namespace ⟨structured, other⟩, referencesAt_namespace ⟨structured, other⟩]
        exact ih property.type
      · have plain := Bool.eq_false_iff.mpr structured
        rw [referencesAt_other other plain, referencesAt_other other plain]
        rfl

/-- Where no reference has more names than levels, more levels bring no more references. -/
theorem referencesWithin_eq_of_shallow {levels : Nat} (more : Nat)
    (shallow : ∀ reference ∈ referencesWithin graph (levels + more) id,
      reference.1.length ≤ levels) :
    referencesWithin graph (levels + more) id = referencesWithin graph levels id := by
  rw [← filter_referencesWithin levels more id]
  exact (List.filter_eq_self.mpr fun reference member =>
    decide_eq_true (shallow reference member)).symm

/-- **The walk answers the functions of the references below a namespace**, where no namespace stands
within itself: it then enters none that is around it. -/
theorem functionsWithin_eq_references (root : String) {levels : Nat} {visiting : List TypeId}
    {path : List String} (space : IsNamespace graph id) (acyclic : IsAcyclic graph id)
    (around : ∀ outer ∈ visiting, TransGen (Contains graph) outer id) :
    functionsWithin graph root levels visiting path id =
      (referencesWithin graph levels id).filterMap fun reference =>
        functionAt? graph root (path ++ reference.1) reference.2 := by
  induction levels generalizing visiting path id with
  | zero => rfl
  | succ levels ih =>
    have outside : id ∉ visiting := fun member => acyclic id .refl (around id member)
    rw [functionsWithin, if_neg outside, referencesWithin_succ, List.filterMap_flatMap]
    refine List.flatMap_congr fun property member => ?_
    rw [List.filterMap_map]
    dsimp only
    by_cases refers : isFunctionReference graph property.type = true
    · rw [if_pos refers, referencesAt_reference refers, List.filterMap_cons, Function.comp_apply]
      show (functionAt? graph root (path ++ [property.name]) property.type).toList = _
      rw [Reference.under]
      cases functionAt? graph root (path ++ [property.name]) property.type with
      | none => rfl
      | some function => rfl
    · have other := Bool.eq_false_iff.mpr refers
      rw [if_neg refers]
      by_cases structured : graph.isStructured property.type = true
      · have inner : IsNamespace graph property.type := ⟨structured, other⟩
        have contains : Contains graph id property.type := ⟨space, property, member, rfl⟩
        have within : functionsWithin graph root levels (id :: visiting) (path ++ [property.name])
            property.type = (referencesAt graph levels property.type).filterMap
              ((fun reference => functionAt? graph root (path ++ reference.1) reference.2) ∘
                Reference.under property.name) := by
          rw [ih inner (acyclic.inside contains) (List.forall_mem_cons.mpr
            ⟨.single contains, fun outer held => (around outer held).tail contains⟩),
            referencesAt_namespace inner]
          refine List.filterMap_congr fun reference _ => ?_
          rw [Function.comp_apply, Reference.under, List.append_assoc]
          rfl
        split
        · exact within
        · rename_i empty
          have none : graph.properties property.type = [] := by
            simpa [structured] using empty
          rw [referencesAt_namespace inner]
          cases levels with
          | zero => rfl
          | succ levels =>
            rw [referencesWithin_succ, none]
            rfl
      · have plain := Bool.eq_false_iff.mpr structured
        rw [plain, referencesAt_other other plain]
        rfl

theorem functionsBelow_eq (root : String) (space : IsNamespace graph id)
    (acyclic : IsAcyclic graph id) : functionsBelow graph root id =
      (referencesWithin graph (namespaceDepth + 1) id).filterMap fun reference =>
        functionAt? graph root reference.1 reference.2 :=
  functionsWithin_eq_references root space acyclic fun _ member => absurd member List.not_mem_nil

/-- Below a namespace there are functions for references only. -/
theorem isFunctionReference_of_mem {levels : Nat} {reference : Reference}
    (member : reference ∈ referencesWithin graph levels id) :
    isFunctionReference graph reference.2 = true := by
  induction levels generalizing id reference with
  | zero => cases member
  | succ levels ih =>
    rw [referencesWithin_succ] at member
    obtain ⟨property, _, inside⟩ := List.mem_flatMap.mp member
    obtain ⟨other, held, rfl⟩ := List.mem_map.mp inside
    show isFunctionReference graph other.2 = true
    rw [referencesAt] at held
    split at held
    · rename_i refers
      cases List.mem_singleton.mp held
      exact refers
    · split at held
      · exact ih held
      · cases held

end References

/-! ### Later graphs -/

section Later

variable {earlier later : Graph} (settled : earlier.Settled) (continues : earlier.Continues later)
  {id : TypeId}

include settled continues

theorem functionAt?_later (inside : id < earlier.nodes.size) (root : String) (path : List String) :
    functionAt? later root path id = functionAt? earlier root path id := by
  have known := settled.knowsProperties inside
  have text : ∀ name property, earlier.property? id name = some property →
      literalText later property.type = literalText earlier property.type := by
    intro name property found
    have decided := settled.isKnown
      (settled.property_lt id property (List.mem_of_find?_eq_some found))
    rw [literalText, literalText, continues.stringValue?_eq decided, continues.text_eq decided]
  rw [functionAt?, functionAt?]
  dsimp only
  simp only [continues.property?_eq known]
  cases kind : earlier.property? id "_type" with
  | none => rfl
  | some kind' =>
    cases visibility : earlier.property? id "_visibility" with
    | none => rfl
    | some visibility' =>
      cases arguments : earlier.property? id "_args" with
      | none => rfl
      | some arguments' =>
        cases result : earlier.property? id "_returnType" with
        | none => rfl
        | some result' =>
          show some _ = some _
          simp only [text _ _ kind, text _ _ visibility]

theorem functionsWithin_later (inside : id < earlier.nodes.size) (root : String) (levels : Nat)
    (visiting : List TypeId) (path : List String) :
    functionsWithin later root levels visiting path id =
      functionsWithin earlier root levels visiting path id := by
  induction levels generalizing id visiting path with
  | zero => rfl
  | succ levels ih =>
    rw [functionsWithin, functionsWithin, continues.properties_eq (settled.knowsProperties inside)]
    split
    · rfl
    · refine List.flatMap_congr fun property member => ?_
      have below := settled.property_lt id property member
      have known := settled.knowsProperties below
      dsimp only
      rw [isFunctionReference_later continues known, functionAt?_later settled continues below,
        continues.isStructured_eq (settled.isKnown below), continues.properties_eq known, ih below]

/-- **The functions below a type stay the same** in all later graphs of the run. -/
theorem functionsBelow_later (inside : id < earlier.nodes.size) (root : String) :
    functionsBelow later root id = functionsBelow earlier root id :=
  functionsWithin_later settled continues inside root _ _ _

end Later

end SwiftBindings.Api
