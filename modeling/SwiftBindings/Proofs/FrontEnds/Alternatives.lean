/-
**Validators as alternatives.**

A validator stands for a list of alternatives: the absent value, null, and shapes of present values.
Its outline is what the two sources of validators agree on; they differ in the texts of unknown values
and in the keys of mappings. The outline of a union of unions is that of all alternatives in one list
(`unionOf_ofAlternatives`), so it makes no difference whether members are classified first and joined
then, or joined first.
-/

import Mathlib.Data.List.Basic
import SwiftBindings.Proofs.Repetitions
import SwiftBindings.Schema.Builder

namespace SwiftBindings

/-! ### Outlines -/

mutual

/-- The shape without the texts of unknown values and without the keys of mappings. -/
def Shape.outline : Shape → Shape
  | .string => .string
  | .number => .number
  | .boolean => .boolean
  | .id table => .id table
  | .array element => .array element.outline
  | .record _ value => .record none value.outline
  | .object fields => .object (Field.outlines fields)
  | .enumeration values => .enumeration values
  | .any => .any
  | .unknown _ gap => .unknown "" gap

/-- The validator without the texts of unknown values and without the keys of mappings. -/
def Validator.outline : Validator → Validator
  | ⟨shape, optional, nullable⟩ => ⟨shape.outline, optional, nullable⟩

/-- The fields without the texts of unknown values and without the keys of mappings. -/
def Field.outlines : List Field → List Field
  | [] => []
  | ⟨name, optional, nullable, schema⟩ :: rest =>
    ⟨name, optional, nullable, schema.outline⟩ :: Field.outlines rest

end

section Outline

variable (validator : Validator) (shape : Shape)

theorem Validator.outline_eq :
    validator.outline = ⟨validator.shape.outline, validator.optional, validator.nullable⟩ := by
  cases validator
  rw [Validator.outline]

theorem Validator.outline_ofShape : (Validator.ofShape shape).outline = .ofShape shape.outline := by
  rw [Validator.ofShape, Validator.outline]
  rfl

theorem Validator.outline_admitting (optional nullable : Bool) :
    (validator.admitting optional nullable).outline = validator.outline.admitting optional nullable := by
  rw [Validator.outline_eq, Validator.outline_eq]
  rfl

theorem Field.outlines_declare (name : String) (optional : Bool) (rest : List Field) :
    Field.outlines (.declare name validator optional :: rest) =
      .declare name validator.outline optional :: Field.outlines rest := by
  rw [Field.declare, Field.outlines, Field.declare, Validator.outline_eq]

theorem Shape.values?_outline : shape.outline.values? = shape.values? := by
  cases shape <;> simp [Shape.outline, Shape.values?]

theorem Shape.isTextual_outline : shape.outline.isTextual = shape.isTextual := by
  cases shape <;> simp [Shape.outline, Shape.isTextual]

theorem Shape.isBoolean_outline : shape.outline.isBoolean = shape.isBoolean := by
  cases shape <;> simp [Shape.outline, Shape.isBoolean]

theorem Validator.isNullOnly_outline : validator.outline.isNullOnly = validator.isNullOnly := by
  obtain ⟨shape, optional, nullable⟩ := validator
  cases shape with
  | unknown text gap =>
    rw [Validator.outline, Shape.outline]
    cases gap <;> rfl
  | _ => simp [Validator.outline, Shape.outline, Validator.isNullOnly]

end Outline

theorem all_congr_of_mem {α : Type} {items : List α} {test test' : α → Bool}
    (same : ∀ item ∈ items, test item = test' item) : items.all test = items.all test' := by
  rw [Bool.eq_iff_iff, List.all_eq_true, List.all_eq_true]
  exact forall₂_congr fun item member => by rw [same item member]

/-! ### Unions of shapes -/

/-- The values of enumerations, each once; none when some shape is another. -/
def Shape.joinedValues? (shapes : List Shape) : Option (List String) :=
  (shapes.mapM Shape.values?).map fun values => values.flatten.eraseDups

/-- The union of two or more shapes. -/
theorem unionShape_many (text : String) {shapes : List Shape} (many : 2 ≤ shapes.length) :
    unionShape text shapes = match Shape.joinedValues? shapes with
      | some values => .enumeration values
      | none =>
        if shapes.all Shape.isTextual then .string
        else if shapes.all Shape.isBoolean then .boolean
        else .unknown text .nonLiteralUnion := by
  obtain _ | ⟨first, _ | ⟨second, rest⟩⟩ := shapes
  · simp at many
  · simp at many
  · rw [unionShape, Shape.joinedValues?]
    · cases (first :: second :: rest).mapM Shape.values? <;> rfl
    · simp
    · simp

/-- Two unions are the same when their members are of the same classes. -/
theorem unionShape_congr {text : String} {shapes shapes' : List Shape} (many : 2 ≤ shapes.length)
    (many' : 2 ≤ shapes'.length)
    (values : Shape.joinedValues? shapes = Shape.joinedValues? shapes')
    (textual : shapes.all Shape.isTextual = shapes'.all Shape.isTextual)
    (boolean : shapes.all Shape.isBoolean = shapes'.all Shape.isBoolean) :
    unionShape text shapes = unionShape text shapes' := by
  rw [unionShape_many text many, unionShape_many text many', values, textual, boolean]

theorem unionShape_outline (text : String) (shapes : List Shape) :
    (unionShape text shapes).outline = unionShape "" (shapes.map Shape.outline) := by
  match shapes with
  | [] =>
    rw [unionShape, Shape.outline]
    rfl
  | [shape] => rfl
  | first :: second :: rest =>
    have many : 2 ≤ (first :: second :: rest).length := by simp
    generalize first :: second :: rest = shapes at many
    have same : (shapes.map Shape.outline).mapM Shape.values? = shapes.mapM Shape.values? := by
      rw [List.mapM_map]
      exact congrArg (fun read => shapes.mapM read) (funext Shape.values?_outline)
    rw [unionShape_many text many, unionShape_many "" (by rwa [List.length_map]),
      Shape.joinedValues?, Shape.joinedValues?, same, List.all_map, List.all_map,
      show Shape.isTextual ∘ Shape.outline = Shape.isTextual from funext Shape.isTextual_outline,
      show Shape.isBoolean ∘ Shape.outline = Shape.isBoolean from funext Shape.isBoolean_outline]
    cases (shapes.mapM Shape.values?).map fun values => values.flatten.eraseDups with
    | some values =>
      dsimp only
      rw [Shape.outline]
    | none =>
      dsimp only
      split
      · rw [Shape.outline]
      · split <;> rw [Shape.outline]

theorem unionOf_outline (text : String) (members : List Validator) :
    (unionOf text members).outline = unionOf "" (members.map Validator.outline) := by
  have kept : (members.map Validator.outline).filter (fun member => !member.isNullOnly) =
      (members.filter fun member => !member.isNullOnly).map Validator.outline := by
    rw [List.filter_map]
    congr 2
    funext member
    rw [Function.comp_apply, Validator.isNullOnly_outline]
  have shapes : ((members.filter fun member => !member.isNullOnly).map Validator.outline).map
      Validator.shape = ((members.filter fun member => !member.isNullOnly).map Validator.shape).map
        Shape.outline := by
    rw [List.map_map, List.map_map]
    exact List.map_congr_left fun member _ => by
      rw [Function.comp_apply, Function.comp_apply, Validator.outline_eq]
  rw [unionOf, unionOf, Validator.outline, kept, shapes, unionShape_outline, List.any_map, List.any_map]
  congr 1
  · exact congrArg (members.any ·) (funext fun member => by
      rw [Function.comp_apply, Validator.outline_eq])
  · exact congrArg (members.any ·) (funext fun member => by
      rw [Function.comp_apply, Validator.isNullOnly_outline, Validator.outline_eq])

/-! ### Unions of unions -/

/-- The joined values of two lists in a row depend on those of each. -/
theorem Shape.joinedValues?_append_congr {first first' second second' : List Shape}
    (same : joinedValues? first = joinedValues? first')
    (same' : joinedValues? second = joinedValues? second') :
    joinedValues? (first ++ second) = joinedValues? (first' ++ second') := by
  rw [joinedValues?, joinedValues?] at same same'
  rw [joinedValues?, joinedValues?, List.mapM_append, List.mapM_append]
  cases own : first.mapM Shape.values? with
  | none =>
    rw [own, Option.map_none, eq_comm, Option.map_eq_none_iff] at same
    rw [same]
    rfl
  | some values =>
    rw [own, Option.map_some, eq_comm, Option.map_eq_some_iff] at same
    obtain ⟨values', found', same⟩ := same
    rw [found']
    cases others : second.mapM Shape.values? with
    | none =>
      rw [others, Option.map_none, eq_comm, Option.map_eq_none_iff] at same'
      rw [same']
      rfl
    | some more =>
      rw [others, Option.map_some, eq_comm, Option.map_eq_some_iff] at same'
      obtain ⟨more', found'', same'⟩ := same'
      rw [found'']
      show some (values ++ more).flatten.eraseDups = some (values' ++ more').flatten.eraseDups
      rw [List.flatten_append, List.flatten_append, eraseDups_append_congr same.symm same'.symm]

theorem Shape.isTextual_of_values? {shape : Shape} {values : List String}
    (found : shape.values? = some values) : shape.isTextual = true := by
  cases shape with
  | enumeration => rfl
  | _ => cases found

theorem Shape.isTextual_of_joinedValues? {shapes : List Shape} {values : List String}
    (found : joinedValues? shapes = some values) : shapes.all Shape.isTextual = true := by
  obtain ⟨read, reads, _⟩ := Option.map_eq_some_iff.mp found
  induction shapes generalizing read values with
  | nil => rfl
  | cons shape rest ih =>
    rw [List.mapM_cons] at reads
    cases own : shape.values? with
    | none =>
      rw [own] at reads
      cases reads
    | some values =>
      cases others : rest.mapM Shape.values? with
      | none =>
        rw [own, others] at reads
        cases reads
      | some more =>
        rw [List.all_cons, isTextual_of_values? own,
          ih (congrArg (Option.map _) others) more others rfl]
        rfl

/-- A shape is not both of strings and of truth values. -/
theorem Shape.isBoolean_of_isTextual {shapes : List Shape} (present : shapes ≠ [])
    (textual : shapes.all Shape.isTextual = true) : shapes.all Shape.isBoolean = false := by
  cases shapes with
  | nil => exact absurd rfl present
  | cons shape rest =>
    rw [List.all_cons, Bool.and_eq_true] at textual
    rw [List.all_cons]
    cases shape with
    | string => rfl
    | enumeration => rfl
    | _ => cases textual.1

section Classes

variable {shapes : List Shape} (present : shapes ≠ [])

include present

theorem joinedValues?_unionShape :
    Shape.joinedValues? [unionShape "" shapes] = Shape.joinedValues? shapes := by
  match shapes, present with
  | [shape], _ => rfl
  | first :: second :: rest, _ =>
    rw [unionShape_many "" (by simp)]
    cases found : Shape.joinedValues? (first :: second :: rest) with
    | some values =>
      obtain ⟨read, _, rfl⟩ := Option.map_eq_some_iff.mp found
      show some (List.flatten [read.flatten.eraseDups]).eraseDups = _
      rw [List.flatten_singleton, eraseDups_eraseDups]
    | none =>
      dsimp only
      split
      · rfl
      · split <;> rfl

theorem isTextual_unionShape :
    (unionShape "" shapes).isTextual = shapes.all Shape.isTextual := by
  match shapes, present with
  | [shape], _ => exact (Bool.and_true _).symm
  | first :: second :: rest, _ =>
    rw [unionShape_many "" (by simp)]
    cases found : Shape.joinedValues? (first :: second :: rest) with
    | some values => exact (Shape.isTextual_of_joinedValues? found).symm
    | none =>
      dsimp only
      split
      · rename_i textual
        exact textual.symm
      · rename_i other
        rw [Bool.eq_false_iff.mpr other]
        split <;> rfl

theorem isBoolean_unionShape :
    (unionShape "" shapes).isBoolean = shapes.all Shape.isBoolean := by
  match shapes, present with
  | [shape], _ => exact (Bool.and_true _).symm
  | first :: second :: rest, present =>
    rw [unionShape_many "" (by simp)]
    cases found : Shape.joinedValues? (first :: second :: rest) with
    | some values =>
      exact (Shape.isBoolean_of_isTextual present (Shape.isTextual_of_joinedValues? found)).symm
    | none =>
      dsimp only
      split
      · rename_i textual
        exact (Shape.isBoolean_of_isTextual present textual).symm
      · split
        · rename_i boolean
          exact boolean.symm
        · rename_i other
          exact (Bool.eq_false_iff.mpr other).symm

end Classes

/-- **The union of unions is the union of all their members.** -/
theorem unionShape_flatten {groups : List (List Shape)} (present : ∀ group ∈ groups, group ≠ []) :
    unionShape "" (groups.map (unionShape "")) = unionShape "" groups.flatten := by
  match groups with
  | [] => rfl
  | [group] => rw [List.flatten_singleton]; rfl
  | first :: second :: rest =>
    have many : 2 ≤ ((first :: second :: rest).map (unionShape "")).length := by simp
    have many' : 2 ≤ (first :: second :: rest).flatten.length := by
      have one := List.length_pos_of_ne_nil (present first (by simp))
      have two := List.length_pos_of_ne_nil (present second (by simp))
      simp only [List.flatten_cons, List.length_append]
      omega
    generalize first :: second :: rest = groups at present many many'
    refine unionShape_congr many many' ?_ ?_ ?_
    · clear many many'
      induction groups with
      | nil => rfl
      | cons group rest ih =>
        exact Shape.joinedValues?_append_congr (joinedValues?_unionShape (present group (by simp)))
          (ih fun other member => present other (List.mem_cons_of_mem _ member))
    · rw [List.all_map, List.all_flatten]
      exact all_congr_of_mem fun group member => isTextual_unionShape (present group member)
    · rw [List.all_map, List.all_flatten]
      exact all_congr_of_mem fun group member => isBoolean_unionShape (present group member)

/-! ### Alternatives -/

/-- One alternative of a value. -/
inductive Alternative where
  /-- The value is absent. -/
  | absence
  /-- The value is null. -/
  | null
  /-- The value has a shape. -/
  | present (shape : Shape)

/-- The shape of a present value. -/
def Alternative.shape? : Alternative → Option Shape
  | .present shape => some shape
  | _ => none

/-- The alternative is the absent value. -/
def Alternative.isAbsence : Alternative → Bool
  | .absence => true
  | _ => false

/-- The alternative is null. -/
def Alternative.isNull : Alternative → Bool
  | .null => true
  | _ => false

/-- The validator of a list of alternatives. -/
def Validator.ofAlternatives (alternatives : List Alternative) : Validator :=
  ⟨unionShape "" (alternatives.filterMap Alternative.shape?), alternatives.any Alternative.isAbsence,
    alternatives.any Alternative.isNull⟩

/-- The shape is known. -/
def Shape.isKnown : Shape → Bool
  | .unknown _ _ => false
  | _ => true

/-- There is more than the absent value, and all shapes are known. -/
structure Alternative.Proper (alternatives : List Alternative) : Prop where
  known : ∀ shape ∈ alternatives.filterMap Alternative.shape?, shape.isKnown = true
  inhabited : ∃ alternative ∈ alternatives, alternative.isAbsence = false

theorem Validator.ofAlternatives_absence (alternatives : List Alternative) :
    Validator.ofAlternatives (alternatives ++ [.absence]) =
      (Validator.ofAlternatives alternatives).admitting true false := by
  rw [ofAlternatives, List.filterMap_append, List.any_append, List.any_append]
  exact congrArg (fun shapes => Validator.mk (unionShape "" shapes) _ _) (List.append_nil _)

theorem Validator.ofAlternatives_null (alternatives : List Alternative) :
    Validator.ofAlternatives (alternatives ++ [.null]) =
      (Validator.ofAlternatives alternatives).admitting false true := by
  rw [ofAlternatives, List.filterMap_append, List.any_append, List.any_append]
  exact congrArg (fun shapes => Validator.mk (unionShape "" shapes) _ _) (List.append_nil _)

/-- Nothing but null is accepted where no shape is among the alternatives. -/
theorem Alternative.Proper.isNullOnly {alternatives : List Alternative}
    (proper : Alternative.Proper alternatives) :
    (Validator.ofAlternatives alternatives).isNullOnly =
      (alternatives.filterMap Alternative.shape?).isEmpty := by
  have known := proper.known
  rw [Validator.ofAlternatives, Validator.isNullOnly]
  generalize alternatives.filterMap Alternative.shape? = shapes at known
  match shapes with
  | [] => rfl
  | [shape] =>
    have one := known shape (List.mem_singleton_self shape)
    rw [unionShape]
    cases shape with
    | unknown text gap => cases one
    | _ => rfl
  | first :: second :: rest =>
    rw [unionShape_many "" (by simp)]
    cases Shape.joinedValues? (first :: second :: rest) with
    | some values => rfl
    | none =>
      dsimp only
      split
      · rename_i same
        split at same
        · cases same
        · split at same <;> cases same
      · rfl

/-- Where no shape is among the alternatives, one of them is null. -/
theorem Alternative.Proper.any_isNull {alternatives : List Alternative}
    (proper : Alternative.Proper alternatives)
    (empty : (alternatives.filterMap Alternative.shape?).isEmpty = true) :
    alternatives.any Alternative.isNull = true := by
  obtain ⟨alternative, member, stands⟩ := proper.inhabited
  refine List.any_eq_true.mpr ⟨alternative, member, ?_⟩
  cases alternative with
  | absence => cases stands
  | null => rfl
  | present shape =>
    have inside : shape ∈ alternatives.filterMap Alternative.shape? :=
      List.mem_filterMap.mpr ⟨_, member, rfl⟩
    rw [List.isEmpty_iff.mp empty] at inside
    cases inside

/-- Members without shapes are left out, and have none to add. -/
theorem exists_presentShapes {groups : List (List Alternative)}
    (proper : ∀ group ∈ groups, Alternative.Proper group) :
    ∃ shapes : List (List Shape), (∀ group ∈ shapes, group ≠ []) ∧
      shapes.flatten = groups.flatten.filterMap Alternative.shape? ∧
      ((groups.map Validator.ofAlternatives).filter fun member => !member.isNullOnly).map
        Validator.shape = shapes.map (unionShape "") := by
  induction groups with
  | nil => exact ⟨[], fun _ member => absurd member List.not_mem_nil, rfl, rfl⟩
  | cons group rest ih =>
    obtain ⟨shapes, present, flat, same⟩ :=
      ih fun other member => proper other (List.mem_cons_of_mem _ member)
    have own := (proper group List.mem_cons_self).isNullOnly
    rw [List.map_cons, List.flatten_cons, List.filterMap_append, ← flat]
    cases empty : (group.filterMap Alternative.shape?).isEmpty with
    | true =>
      rw [List.filter_cons_of_neg (by rw [own, empty]; decide), List.isEmpty_iff.mp empty]
      exact ⟨shapes, present, rfl, same⟩
    | false =>
      rw [List.filter_cons_of_pos (by rw [own, empty]; rfl), List.map_cons, same]
      refine ⟨group.filterMap Alternative.shape? :: shapes, ?_, rfl, rfl⟩
      refine List.forall_mem_cons.mpr ⟨fun nothing => ?_, present⟩
      rw [nothing] at empty
      cases empty

/-- **The union of validators is the validator of all their alternatives.** -/
theorem unionOf_ofAlternatives {groups : List (List Alternative)}
    (proper : ∀ group ∈ groups, Alternative.Proper group) :
    unionOf "" (groups.map Validator.ofAlternatives) = .ofAlternatives groups.flatten := by
  rw [unionOf, Validator.ofAlternatives, List.any_flatten, List.any_flatten, List.any_map, List.any_map]
  congr 1
  · obtain ⟨shapes, present, flat, same⟩ := exists_presentShapes proper
    rw [same, unionShape_flatten present, flat]
  · rw [Bool.eq_iff_iff, List.any_eq_true, List.any_eq_true]
    refine exists_congr fun group => and_congr_right fun member => ?_
    rw [Function.comp_apply, (proper group member).isNullOnly, Bool.or_eq_true]
    exact ⟨fun either => either.elim id (proper group member).any_isNull, .inl⟩

end SwiftBindings
