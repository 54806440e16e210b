/-
**One visit of a reduction.**

What a visit of a type comes to: a gap where the type is met too deeply or again, and else what its
structure is classified as. A node whose text names no identifiers is classified by its structure
alone.
-/

import SwiftBindings.Proofs.Reduction.Origin
import SwiftBindings.Reduction.Reduce

namespace SwiftBindings.Reduction

open Declared TypeGraph

section Visits

variable {graph : Graph} {reduce : TypeId → Visit Validator} {id : TypeId} {trail : Trail}

/-! ### Entering a type -/

/-- A type that is met for the first time and not too deeply is classified. -/
theorem reduceWithin_succ (levels : Nat) (shallow : trail.depth < maximalNesting)
    (new : id ∉ trail.chain) :
    reduceWithin graph (levels + 1) id trail =
      ((classify graph (reduceWithin graph levels) id (trail.enter id)).1,
        (classify graph (reduceWithin graph levels) id (trail.enter id)).2.leave id) := by
  show (if trail.depth ≥ maximalNesting then _ else if id ∈ trail.chain then _ else _ : Visit _) trail
    = _
  rw [if_neg (Nat.not_le.mpr shallow), if_neg new]
  rfl

/-- Nothing is reduced at the greatest depth. -/
theorem reduceWithin_deep (levels : Nat) (deep : maximalNesting ≤ trail.depth) :
    reduceWithin graph (levels + 1) id trail = (gapOf graph id .depthLimit, trail) := by
  show (if trail.depth ≥ maximalNesting then _ else _ : Visit _) trail = _
  rw [if_pos deep]
  rfl

/-- A type that is met again is not reduced again. -/
theorem reduceWithin_cycle (levels : Nat) (shallow : trail.depth < maximalNesting)
    (met : id ∈ trail.chain) :
    reduceWithin graph (levels + 1) id trail = (gapOf graph id .cycle, trail) := by
  show (if trail.depth ≥ maximalNesting then _ else if id ∈ trail.chain then _ else _ : Visit _) trail
    = _
  rw [if_neg (Nat.not_le.mpr shallow), if_pos met]
  rfl

/-! ### Classifying it -/

theorem classify_single (single : graph.unionMembers? id = none) :
    classify graph reduce id = classifySingle graph reduce id := by
  rw [classify, single]

section Union

variable {members left : List TypeId} (found : graph.unionMembers? id = some members)

include found

theorem classify_union_none (present : members.filter (fun member =>
      !isAbsence (graph.kind member) && !isNull (graph.kind member)) = []) :
    classify graph reduce id trail =
      ((gapOf graph id .nullOnly).admitting (members.any fun member => isAbsence (graph.kind member))
        (members.any fun member => isNull (graph.kind member)), trail) := by
  rw [classify, found]
  dsimp only
  rw [present]
  rfl

theorem classify_union_one {single : TypeId} (present : members.filter (fun member =>
      !isAbsence (graph.kind member) && !isNull (graph.kind member)) = [single]) :
    classify graph reduce id trail =
      ((reduce single trail).1.admitting (members.any fun member => isAbsence (graph.kind member))
        (members.any fun member => isNull (graph.kind member)), (reduce single trail).2) := by
  rw [classify, found]
  dsimp only
  rw [present]
  rfl

theorem classify_union_many (present : members.filter (fun member =>
      !isAbsence (graph.kind member) && !isNull (graph.kind member)) = left)
    (many : 2 ≤ left.length) :
    classify graph reduce id trail =
      ((unionValidator graph left).admitting (members.any fun member => isAbsence (graph.kind member))
        (members.any fun member => isNull (graph.kind member)), trail) := by
  rw [classify, found]
  dsimp only
  rw [present]
  match left, many with
  | first :: second :: rest, _ => rfl

end Union

theorem classifySingle_atom {validator : Validator} (atom : atomValidator? graph id = some validator) :
    classifySingle graph reduce id = pure validator := by
  rw [classifySingle, atom]

theorem classifySingle_identifier {table : Option String}
    (found : identifierTable? graph id = some table) :
    classifySingle graph reduce id = pure (.ofShape (.id table)) :=
  classifySingle_atom (by rw [atomValidator?, found])

section Parts

variable (parts : atomValidator? graph id = none)

include parts

theorem classifySingle_array {element : TypeId} (list : graph.arrayElement? id = some element) :
    classifySingle graph reduce id trail =
      (.ofShape (.array (reduce element trail).1), (reduce element trail).2) := by
  rw [classifySingle, parts, list]
  rfl

variable (single : graph.arrayElement? id = none)

include single

theorem classifySingle_record {value : TypeId} (index : graph.index? id = some value) :
    classifySingle graph reduce id trail =
      (.ofShape (.record none (reduce value trail).1), (reduce value trail).2) := by
  rw [classifySingle, parts, single, index]
  rfl

variable (closed : graph.index? id = none)

include closed

theorem classifySingle_empty (absent : fieldProperties graph id = []) :
    classifySingle graph reduce id trail = (gapOf graph id .unclassified, trail) := by
  rw [classifySingle, parts, single, closed, absent]
  rfl

theorem classifySingle_object (present : fieldProperties graph id ≠ []) :
    classifySingle graph reduce id trail =
      (.ofShape (.object (reduceFields reduce (fieldProperties graph id) trail).1),
        (reduceFields reduce (fieldProperties graph id) trail).2) := by
  have some : (fieldProperties graph id).isEmpty = false := List.isEmpty_eq_false_iff.mpr present
  rw [classifySingle, parts, single, closed]
  dsimp only
  rw [if_neg (by rw [some]; exact Bool.false_ne_true)]
  rfl

end Parts

/-- Fields are reduced one after the other. -/
theorem reduceFields_cons {property : Property} {rest : List Property} {validator : Validator}
    {fields : List Field} {between after : Trail} (reduced : reduce property.type trail =
      (validator, between)) (declared : reduceFields reduce rest between = (fields, after)) :
    reduceFields reduce (property :: rest) trail =
      (.declare property.name validator property.optional :: fields, after) := by
  rw [reduceFields]
  show ((.declare property.name (reduce property.type trail).1 property.optional ::
      (reduceFields reduce rest (reduce property.type trail).2).1,
    (reduceFields reduce rest (reduce property.type trail).2).2) : List Field × Trail) = _
  rw [reduced]
  dsimp only
  rw [declared]

/-- Fields carry the names of their properties, in order. -/
theorem names_reduceFields (properties : List Property) (trail : Trail) :
    (reduceFields reduce properties trail).1.map Field.name = properties.map Property.name := by
  induction properties generalizing trail with
  | nil => rfl
  | cons property rest ih =>
    rw [reduceFields_cons rfl rfl]
    exact congrArg (property.name :: ·) (ih _)

/-! ### What it comes to -/

/-- A type that is no union is an atom, or its validator is for values that are present. -/
theorem classifySingle_cases :
    (∃ validator, atomValidator? graph id = some validator ∧
      (classifySingle graph reduce id trail).1 = validator) ∨
    ∃ shape, (classifySingle graph reduce id trail).1 = .ofShape shape := by
  cases atom : atomValidator? graph id with
  | some validator =>
    rw [classifySingle_atom atom]
    exact .inl ⟨validator, rfl, rfl⟩
  | none =>
    refine .inr ?_
    cases list : graph.arrayElement? id with
    | some element => exact ⟨_, by rw [classifySingle_array atom list]⟩
    | none =>
      cases index : graph.index? id with
      | some value => exact ⟨_, by rw [classifySingle_record atom list index]⟩
      | none =>
        by_cases empty : fieldProperties graph id = []
        · exact ⟨_, by rw [classifySingle_empty atom list index empty]; rfl⟩
        · exact ⟨_, by rw [classifySingle_object atom list index empty]⟩

theorem reduceWithin_single_cases (levels : Nat) (single : graph.unionMembers? id = none) :
    (∃ validator, atomValidator? graph id = some validator ∧
      (reduceWithin graph levels id trail).1 = validator) ∨
    ∃ shape, (reduceWithin graph levels id trail).1 = .ofShape shape := by
  cases levels with
  | zero => exact .inr ⟨_, rfl⟩
  | succ levels =>
    by_cases shallow : trail.depth < maximalNesting
    · by_cases new : id ∈ trail.chain
      · exact .inr ⟨_, by rw [reduceWithin_cycle levels shallow new]; rfl⟩
      · rw [reduceWithin_succ levels shallow new, classify_single single]
        exact classifySingle_cases
    · exact .inr ⟨_, by rw [reduceWithin_deep levels (Nat.le_of_not_lt shallow)]; rfl⟩

theorem unionValidator_eq_ofShape (members : List TypeId) :
    ∃ shape, unionValidator graph members = .ofShape shape := by
  rw [unionValidator]
  split
  · exact ⟨_, rfl⟩
  · split
    · exact ⟨_, rfl⟩
    · split <;> exact ⟨_, rfl⟩

/-! ### Leaving it -/

section Restores

variable (restores : ∀ id trail, (reduce id trail).2 = trail)

include restores

theorem trail_reduceFields (properties : List Property) :
    (reduceFields reduce properties trail).2 = trail := by
  induction properties with
  | nil => rfl
  | cons property rest ih =>
    rw [reduceFields_cons (Prod.ext rfl (restores property.type trail)) rfl]
    exact ih

/-- Each field is the property with the validator of its type, which is reduced on the same trail. -/
theorem fields_reduceFields (properties : List Property) :
    (reduceFields reduce properties trail).1 = properties.map fun property =>
      .declare property.name (reduce property.type trail).1 property.optional := by
  induction properties with
  | nil => rfl
  | cons property rest ih =>
    rw [reduceFields_cons (Prod.ext rfl (restores property.type trail)) rfl, ih]
    rfl

theorem trail_classifySingle : (classifySingle graph reduce id trail).2 = trail := by
  cases atom : atomValidator? graph id with
  | some validator => rw [classifySingle_atom atom]; rfl
  | none =>
    cases list : graph.arrayElement? id with
    | some element =>
      rw [classifySingle_array atom list]
      exact restores element trail
    | none =>
      cases index : graph.index? id with
      | some value =>
        rw [classifySingle_record atom list index]
        exact restores value trail
      | none =>
        by_cases present : fieldProperties graph id = []
        · rw [classifySingle_empty atom list index present]
        · rw [classifySingle_object atom list index present]
          exact trail_reduceFields restores _

theorem trail_classify : (classify graph reduce id trail).2 = trail := by
  cases found : graph.unionMembers? id with
  | none =>
    rw [classify_single found]
    exact trail_classifySingle restores
  | some members =>
    generalize present : members.filter (fun member =>
      !isAbsence (graph.kind member) && !isNull (graph.kind member)) = left
    match left, present with
    | [], present => rw [classify_union_none found present]
    | [single], present =>
      rw [classify_union_one found present]
      exact restores single trail
    | _ :: _ :: _, present => rw [classify_union_many found present (by simp)]

end Restores

/-- **A visit comes back to where it started.** -/
theorem trail_reduceWithin (levels : Nat) :
    ∀ id trail, (reduceWithin graph levels id trail).2 = trail := by
  induction levels with
  | zero => exact fun _ _ => rfl
  | succ levels ih =>
    intro id trail
    by_cases shallow : trail.depth < maximalNesting
    · by_cases new : id ∈ trail.chain
      · rw [reduceWithin_cycle levels shallow new]
      · rw [reduceWithin_succ levels shallow new, trail_classify ih]
        exact trail.leave_enter id
    · rw [reduceWithin_deep levels (Nat.le_of_not_lt shallow)]

section Stands

variable {kind : Kind} (stands : graph.Stands id kind)

include stands

theorem kind_of_stands : graph.kind id = kind := by
  obtain ⟨_, _, found, _⟩ := stands
  exact Graph.kind_of_getElem? found

/-- No brand makes an identifier of a type that is no intersection. -/
theorem identifierTable?_of_stands (other : ∀ parts, kind ≠ .intersection parts) :
    identifierTable? graph id = none := by
  obtain ⟨text, plain, found, _⟩ := stands
  rw [identifierTable?, Graph.text_of_getElem? found, plain, brandedTable?,
    Graph.kind_of_getElem? found]
  cases kind with
  | intersection parts => exact absurd rfl (other parts)
  | _ => rfl

end Stands

theorem classify_array {element : TypeId} (stands : graph.Stands id (.array element)) :
    classify graph reduce id trail =
      (.ofShape (.array (reduce element trail).1), (reduce element trail).2) := by
  have kind := kind_of_stands stands
  have atom : atomValidator? graph id = none := by
    rw [atomValidator?, identifierTable?_of_stands stands fun _ => Kind.noConfusion, kind]
    rfl
  rw [classify_single (by rw [Graph.unionMembers?, kind])]
  exact classifySingle_array atom (by rw [Graph.arrayElement?, kind])

theorem atomValidator?_object {shape : ObjectShape} (stands : graph.Stands id (.object shape)) :
    atomValidator? graph id = none := by
  rw [atomValidator?, identifierTable?_of_stands stands fun _ => Kind.noConfusion,
    kind_of_stands stands]
  rfl

theorem classify_record {properties : List Property} {value : TypeId}
    (stands : graph.Stands id (.object ⟨properties, some value⟩)) :
    classify graph reduce id trail =
      (.ofShape (.record none (reduce value trail).1), (reduce value trail).2) := by
  have kind := kind_of_stands stands
  have index : graph.index? id = some value := by rw [Graph.index?, Graph.indexWithin, kind]
  rw [classify_single (by rw [Graph.unionMembers?, kind])]
  exact classifySingle_record (atomValidator?_object stands) (by rw [Graph.arrayElement?, kind]) index

/-- The properties of an object type are its fields, as long as none is inherited. -/
theorem classify_object {properties : List Property}
    (stands : graph.Stands id (.object ⟨properties, none⟩)) (present : properties ≠ [])
    (own : ∀ property ∈ properties, isInherited property.name = false) :
    classify graph reduce id trail =
      (.ofShape (.object (reduceFields reduce properties trail).1),
        (reduceFields reduce properties trail).2) := by
  have kind := kind_of_stands stands
  have index : graph.index? id = none := by rw [Graph.index?, Graph.indexWithin, kind]
  have fields : fieldProperties graph id = properties := by
    rw [fieldProperties, Graph.properties, Graph.propertiesWithin, kind]
    exact List.filter_eq_self.mpr fun property member => by rw [own property member]; rfl
  rw [classify_single (by rw [Graph.unionMembers?, kind]), classifySingle_object
    (atomValidator?_object stands) (by rw [Graph.arrayElement?, kind]) index (by rwa [fields]), fields]

end Visits

end SwiftBindings.Reduction
