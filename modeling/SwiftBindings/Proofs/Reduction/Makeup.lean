/-
**What a validator is made of.**

The validator of a type is a leaf, or it is made of the validators of other types: that of the only
alternative that is neither null nor absent, of an element, of a value, or of the properties of an object
(`Makeup`). The other validators stand at places inside it, an alternative at the place of the union
itself (`Makeup.HasPart`).

As long as the reduction of a part leaves the trail as it was, each part is reduced on the same trail, and
the validator is built from what the parts are reduced to (`classify_eq_build`).
-/

import SwiftBindings.Proofs.Reduction.RenamedVisits

namespace SwiftBindings

/-! ### Places in a validator -/

/-- From a validator to one inside it. -/
inductive Step where
  /-- To the element of a list. -/
  | element
  /-- To the keys of a mapping. -/
  | key
  /-- To the values of a mapping. -/
  | value
  /-- To the field of an object at a position. -/
  | field (position : Nat)
  deriving DecidableEq, Repr

/-- The validator one step inside a shape. -/
def Shape.part? : Step → Shape → Option Validator
  | .element, .array element => some element
  | .key, .record key _ => key
  | .value, .record _ value => some value
  | .field position, .object fields => fields[position]?.map Field.schema
  | _, _ => none

/-- The validator at a place. -/
def Validator.at? : List Step → Validator → Option Validator
  | [], validator => some validator
  | step :: rest, validator => (validator.shape.part? step).bind (Validator.at? rest)

/-- At the place stands an unknown value with the text and the gap. -/
def Validator.HasGap (validator : Validator) (place : List Step) (text : String) (gap : Gap) : Prop :=
  ∃ found, validator.at? place = some found ∧ found.shape = .unknown text gap

/-- Nothing stands inside the shape. -/
def Shape.IsLeaf (shape : Shape) : Prop :=
  ∀ step, shape.part? step = none

/-- Nothing stands inside the shape, and it is not unknown because of a type that was met again or too
deeply. -/
def Shape.isPlain : Shape → Bool
  | .array _ | .record _ _ | .object _ => false
  | .unknown _ gap => gap != .depthLimit && gap != .cycle
  | _ => true

section Places

variable {validator other : Validator} {place : List Step}

theorem Validator.at?_append (validator : Validator) (place rest : List Step) :
    validator.at? (place ++ rest) = (validator.at? place).bind (Validator.at? rest) := by
  induction place generalizing validator with
  | nil => rfl
  | cons step place ih =>
    rw [List.cons_append, Validator.at?, Validator.at?, Option.bind_assoc]
    exact Option.bind_congr fun inner _ => ih inner

/-- What stands inside a validator is told by its shape. -/
theorem Validator.at?_congr (same : validator.shape = other.shape) (inside : place ≠ []) :
    validator.at? place = other.at? place := by
  cases place with
  | nil => exact absurd rfl inside
  | cons step place => rw [Validator.at?, Validator.at?, same]

theorem Shape.IsLeaf.at?_eq_some (leaf : validator.shape.IsLeaf) (found : validator.at? place = some other) :
    place = [] := by
  cases place with
  | nil => rfl
  | cons step place =>
    rw [Validator.at?, leaf step] at found
    cases found

theorem Shape.isLeaf_of_isPlain {shape : Shape} (plain : shape.isPlain = true) : shape.IsLeaf := by
  intro step
  cases shape with
  | array | record | object => cases plain
  | _ => cases step <;> rfl

theorem Shape.isLeaf_unknown (text : String) (gap : Gap) : (Shape.unknown text gap).IsLeaf := by
  intro step
  cases step <;> rfl

theorem Shape.gap_of_isPlain {text : String} {gap : Gap}
    (plain : (Shape.unknown text gap).isPlain = true) : gap ≠ .depthLimit ∧ gap ≠ .cycle := by
  simpa [Shape.isPlain] using plain

end Places

namespace Reduction

open Declared TypeGraph

/-! ### Types and their parts -/

/-- What the validator of a type is made of. -/
inductive Makeup where
  /-- A validator without parts. -/
  | leaf (validator : Validator)
  /-- The validator of the only alternative that is present. -/
  | alternative (member : TypeId) (optional nullable : Bool)
  /-- A list of elements. -/
  | list (element : TypeId)
  /-- A mapping from strings to values. -/
  | mapping (value : TypeId)
  /-- An object with properties. -/
  | object (properties : List Property)

/-- What the validator of the type is made of. -/
def makeup (graph : Graph) (id : TypeId) : Makeup :=
  match graph.unionMembers? id with
  | some members =>
    let optional := members.any fun member => isAbsence (graph.kind member)
    let nullable := members.any fun member => isNull (graph.kind member)
    match presentMembers graph members with
    | [] => .leaf ((gapOf graph id .nullOnly).admitting optional nullable)
    | [single] => .alternative single optional nullable
    | present => .leaf ((unionValidator graph present).admitting optional nullable)
  | none =>
    match atomValidator? graph id with
    | some validator => .leaf validator
    | none =>
      match graph.arrayElement? id with
      | some element => .list element
      | none =>
        match graph.index? id with
        | some value => .mapping value
        | none =>
          if (fieldProperties graph id).isEmpty then .leaf (gapOf graph id .unclassified)
          else .object (fieldProperties graph id)

/-- A type whose validator is a part, and the place of the part. -/
inductive Makeup.HasPart : Makeup → List Step → TypeId → Prop where
  | alternative (member : TypeId) (optional nullable : Bool) :
    HasPart (.alternative member optional nullable) [] member
  | element (element : TypeId) : HasPart (.list element) [.element] element
  | value (value : TypeId) : HasPart (.mapping value) [.value] value
  | field {properties : List Property} {position : Nat} {property : Property}
    (found : properties[position]? = some property) :
    HasPart (.object properties) [.field position] property.type

/-- The validator that is made of those of the parts. -/
def Makeup.build (reduced : TypeId → Validator) : Makeup → Validator
  | .leaf validator => validator
  | .alternative member optional nullable => (reduced member).admitting optional nullable
  | .list element => .ofShape (.array (reduced element))
  | .mapping value => .ofShape (.record none (reduced value))
  | .object properties => .ofShape (.object (properties.map fun property =>
      .declare property.name (reduced property.type) property.optional))

section Build

variable {made : Makeup} {steps place : List Step} {part : TypeId}

theorem Makeup.HasPart.length_le (has : made.HasPart steps part) : steps.length ≤ 1 := by
  cases has <;> simp

/-- A part that stands inside stands there as it is. -/
theorem Makeup.HasPart.at?_build (has : made.HasPart steps part) (apart : steps ≠ [])
    (reduced : TypeId → Validator) (place : List Step) :
    (made.build reduced).at? (steps ++ place) = (reduced part).at? place := by
  cases has with
  | alternative => exact absurd rfl apart
  | element => rfl
  | value => rfl
  | @field properties position property found =>
    show ((properties.map _)[position]?.map Field.schema).bind _ = _
    rw [List.getElem?_map, found]
    rfl

/-- The only alternative has the leaves of the union besides its own. -/
theorem Makeup.HasPart.shape_at?_build (has : made.HasPart steps part) (reduced : TypeId → Validator)
    (place : List Step) :
    ((made.build reduced).at? (steps ++ place)).map Validator.shape =
      ((reduced part).at? place).map Validator.shape := by
  by_cases apart : steps = []
  · cases has with
    | alternative member optional nullable =>
      rw [List.nil_append, Makeup.build]
      by_cases inside : place = []
      · rw [inside]
        rfl
      · rw [Validator.at?_congr (Validator.shape_admitting _ _ _) inside]
    | _ => cases apart
  · rw [has.at?_build apart]

/-- Whatever stands in a validator that is built belongs to a part, but for the validator itself. -/
theorem Makeup.exists_part {reduced : TypeId → Validator} {found : Validator}
    (plain : ∀ validator, made = .leaf validator → validator.shape.isPlain = true)
    (stands : (made.build reduced).at? place = some found) :
    (place = [] ∧ ∀ text gap, found.shape = .unknown text gap → gap ≠ .depthLimit ∧ gap ≠ .cycle) ∨
      ∃ steps part rest inner, made.HasPart steps part ∧ place = steps ++ rest ∧
        (reduced part).at? rest = some inner ∧ inner.shape = found.shape := by
  -- What is made of parts is not unknown itself.
  have known : ∀ shape : Shape, shape.isUntyped = false → (Validator.ofShape shape).at? [] = some found →
      ∀ text gap, found.shape = .unknown text gap → gap ≠ .depthLimit ∧ gap ≠ .cycle := by
    rintro shape typed whole text gap same
    cases whole
    rw [Validator.shape_ofShape] at same
    rw [same] at typed
    cases typed
  cases made with
  | leaf validator =>
    have plain := plain validator rfl
    obtain rfl := (Shape.isLeaf_of_isPlain plain).at?_eq_some stands
    cases stands
    refine .inl ⟨rfl, fun text gap same => ?_⟩
    rw [show validator.shape = _ from same] at plain
    exact Shape.gap_of_isPlain plain
  | alternative member optional nullable =>
    have has := Makeup.HasPart.alternative member optional nullable
    have shapes := has.shape_at?_build reduced place
    rw [List.nil_append, stands] at shapes
    obtain ⟨inner, inside, same⟩ := Option.map_eq_some_iff.mp shapes.symm
    exact .inr ⟨[], member, place, inner, has, rfl, inside, same⟩
  | list element =>
    match place with
    | [] => exact .inl ⟨rfl, known _ rfl stands⟩
    | .element :: rest => exact .inr ⟨_, element, rest, found, .element element, rfl, stands, rfl⟩
    | .key :: _ | .value :: _ | .field _ :: _ => cases stands
  | mapping value =>
    match place with
    | [] => exact .inl ⟨rfl, known _ rfl stands⟩
    | .value :: rest => exact .inr ⟨_, value, rest, found, .value value, rfl, stands, rfl⟩
    | .key :: _ | .element :: _ | .field _ :: _ => cases stands
  | object properties =>
    match place with
    | [] => exact .inl ⟨rfl, known _ rfl stands⟩
    | .field position :: rest =>
      obtain ⟨schema, field, inside⟩ := Option.bind_eq_some_iff.mp stands
      obtain ⟨_, listed, rfl⟩ := Option.map_eq_some_iff.mp field
      rw [List.getElem?_map] at listed
      obtain ⟨property, there, rfl⟩ := Option.map_eq_some_iff.mp listed
      exact .inr ⟨_, property.type, rest, found, .field there, rfl, inside, rfl⟩
    | .key :: _ | .element :: _ | .value :: _ => cases stands

end Build

/-- **Classifying a type builds its validator from those of its parts**, which are all reduced on the same
trail. -/
theorem classify_eq_build {graph : Graph} {reduce : TypeId → Visit Validator}
    (restores : ∀ id trail, (reduce id trail).2 = trail) (id : TypeId) (trail : Trail) :
    classify graph reduce id trail =
      ((makeup graph id).build fun part => (reduce part trail).1, trail) := by
  refine Prod.ext ?_ (trail_classify restores)
  rw [makeup]
  cases found : graph.unionMembers? id with
  | some members =>
    dsimp only
    generalize present : presentMembers graph members = left
    match left, present with
    | [], present => rw [classify_union_none found present, Makeup.build]
    | [single], present => rw [classify_union_one found present, Makeup.build]
    | _ :: _ :: _, present => rw [classify_union_many found present (by simp), Makeup.build]
  | none =>
    rw [classify_single found]
    cases atom : atomValidator? graph id with
    | some validator =>
      rw [classifySingle_atom atom]
      rfl
    | none =>
      cases list : graph.arrayElement? id with
      | some element => rw [classifySingle_array atom list, Makeup.build]
      | none =>
        cases index : graph.index? id with
        | some value => rw [classifySingle_record atom list index, Makeup.build]
        | none =>
          dsimp only
          by_cases absent : fieldProperties graph id = []
          · rw [classifySingle_empty atom list index absent, if_pos (List.isEmpty_iff.mpr absent),
              Makeup.build]
          · rw [classifySingle_object atom list index absent, if_neg (mt List.isEmpty_iff.mp absent),
              Makeup.build, fields_reduceFields restores]

/-! ### Leaves -/

theorem isPlain_unionValidator (graph : Graph) (members : List TypeId) :
    (unionValidator graph members).shape.isPlain = true := by
  rw [unionValidator]
  split
  · rfl
  · split
    · rfl
    · split
      · rfl
      · rfl

theorem isPlain_atomValidator? {graph : Graph} {id : TypeId} {validator : Validator}
    (atom : atomValidator? graph id = some validator) : validator.shape.isPlain = true := by
  rw [atomValidator?] at atom
  split at atom
  · cases atom
    rfl
  · split at atom
    · rename_i shape found
      cases atom
      rw [primitiveShape?.eq_def] at found
      split at found <;> cases found <;> rfl
    · split at atom <;> cases atom <;> rfl

/-- A validator without parts is plain. -/
theorem isPlain_leaf {graph : Graph} {id : TypeId} {validator : Validator}
    (leaf : makeup graph id = .leaf validator) : validator.shape.isPlain = true := by
  rw [makeup] at leaf
  split at leaf
  · dsimp only at leaf
    split at leaf
    · cases leaf
      rfl
    · cases leaf
    · cases leaf
      exact isPlain_unionValidator graph _
  · split at leaf
    · rename_i found
      cases leaf
      exact isPlain_atomValidator? found
    · split at leaf
      · cases leaf
      · split at leaf
        · cases leaf
        · split at leaf
          · cases leaf
            rfl
          · cases leaf

end Reduction

end SwiftBindings
