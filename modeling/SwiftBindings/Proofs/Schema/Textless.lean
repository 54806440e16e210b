/-
**Validators up to texts and order.**

The text of an unknown value is where it comes from, and the values of an enumeration have an order only
because a list has one. A validator without its texts, and with the values of its enumerations arranged
in some way, is `Validator.textless`.

* `unionOf_textless`: without texts, a union depends on its members without texts.
* `unionOf_perm`: with sorted values, a union does not depend on the order of its members.
* `unionOf_nested`: members in a row can be made a union of their own.
-/

import Mathlib.Data.String.Basic
import SwiftBindings.Proofs.FrontEnds.Alternatives
import SwiftBindings.Schema.Basic

namespace SwiftBindings

/-! ### Validators without texts -/

mutual

/-- The shape without the texts of unknown values, with the values of enumerations arranged. -/
def Shape.textless (arrange : List String → List String) : Shape → Shape
  | .string => .string
  | .number => .number
  | .boolean => .boolean
  | .id table => .id table
  | .array element => .array (element.textless arrange)
  | .record none value => .record none (value.textless arrange)
  | .record (some key) value => .record (some (key.textless arrange)) (value.textless arrange)
  | .object fields => .object (Field.allTextless arrange fields)
  | .enumeration values => .enumeration (arrange values)
  | .any => .any
  | .unknown _ gap => .unknown "" gap

/-- The validator without the texts of unknown values, with the values of enumerations arranged. -/
def Validator.textless (arrange : List String → List String) : Validator → Validator
  | ⟨shape, optional, nullable⟩ => ⟨shape.textless arrange, optional, nullable⟩

/-- The fields without the texts of unknown values, with the values of enumerations arranged. -/
def Field.allTextless (arrange : List String → List String) : List Field → List Field
  | [] => []
  | ⟨name, optional, nullable, schema⟩ :: rest =>
    ⟨name, optional, nullable, schema.textless arrange⟩ :: Field.allTextless arrange rest

end

/-- The table without the texts of unknown values, with the values of enumerations arranged. -/
def Table.textless (arrange : List String → List String) (table : Table) : Table :=
  { table with fields := Field.allTextless arrange table.fields }

/-- The schema without the texts of unknown values, with the values of enumerations arranged. -/
def Schema.textless (arrange : List String → List String) (schema : Schema) : Schema :=
  { schema with tables := schema.tables.map (Table.textless arrange) }

section Observations

variable (arrange : List String → List String) (validator : Validator) (shape : Shape)

theorem Validator.textless_eq : validator.textless arrange =
    ⟨validator.shape.textless arrange, validator.optional, validator.nullable⟩ := by
  cases validator
  rw [Validator.textless]

theorem Validator.textless_ofShape :
    (Validator.ofShape shape).textless arrange = .ofShape (shape.textless arrange) := by
  rw [Validator.textless_eq]
  rfl

theorem Validator.textless_ofGap (text : String) (gap : Gap) :
    (Validator.ofGap text gap).textless arrange = .ofGap "" gap := by
  rw [Validator.ofGap, Validator.textless_ofShape, Shape.textless]
  rfl

theorem Validator.textless_admitting (optional nullable : Bool) :
    (validator.admitting optional nullable).textless arrange =
      (validator.textless arrange).admitting optional nullable := by
  rw [Validator.textless_eq, Validator.textless_eq]
  rfl

theorem Field.allTextless_declare (name : String) (rest : List Field) :
    Field.allTextless arrange (.declare name validator false :: rest) =
      .declare name (validator.textless arrange) false :: Field.allTextless arrange rest := by
  rw [Field.declare, Field.allTextless, Field.declare, Validator.textless_eq]

theorem Validator.isNullOnly_textless :
    (validator.textless arrange).isNullOnly = validator.isNullOnly := by
  obtain ⟨shape, optional, nullable⟩ := validator
  cases shape with
  | unknown text gap =>
    rw [Validator.textless, Shape.textless]
    cases gap <;> rfl
  | record key value => cases key <;> simp [Validator.textless, Shape.textless, Validator.isNullOnly]
  | _ => simp [Validator.textless, Shape.textless, Validator.isNullOnly]

end Observations

/-! ### Classes of shapes -/

/-- The values of an enumeration; no other shape has any. -/
def Shape.values (shape : Shape) : List String :=
  shape.values?.getD []

/-- The shape is an enumeration. -/
def Shape.isEnumeration (shape : Shape) : Bool :=
  shape.values?.isSome

section Classes

variable (arrange : List String → List String) (shape : Shape)

theorem Shape.isTextual_textless : (shape.textless arrange).isTextual = shape.isTextual := by
  cases shape with
  | record key value => cases key <;> simp [Shape.textless, Shape.isTextual]
  | _ => simp [Shape.textless, Shape.isTextual]

theorem Shape.isBoolean_textless : (shape.textless arrange).isBoolean = shape.isBoolean := by
  cases shape with
  | record key value => cases key <;> simp [Shape.textless, Shape.isBoolean]
  | _ => simp [Shape.textless, Shape.isBoolean]

theorem Shape.values?_textless : (shape.textless arrange).values? = shape.values?.map arrange := by
  cases shape with
  | record key value => cases key <;> simp [Shape.textless, Shape.values?]
  | _ => simp [Shape.textless, Shape.values?]

theorem Shape.isEnumeration_textless :
    (shape.textless arrange).isEnumeration = shape.isEnumeration := by
  rw [Shape.isEnumeration, Shape.values?_textless, Option.isSome_map, Shape.isEnumeration]

theorem Shape.joinedValues?_eq (shapes : List Shape) : Shape.joinedValues? shapes =
    if shapes.all Shape.isEnumeration then some (shapes.flatMap Shape.values).eraseDups else none := by
  have read : shapes.mapM Shape.values? =
      if shapes.all Shape.isEnumeration then some (shapes.map Shape.values) else none := by
    induction shapes with
    | nil => rfl
    | cons shape rest ih =>
      rw [List.mapM_cons, ih, List.all_cons, List.map_cons, Shape.isEnumeration, Shape.values]
      cases shape.values? with
      | none => rfl
      | some values => cases rest.all Shape.isEnumeration <;> rfl
  rw [Shape.joinedValues?, read]
  split <;> rfl

/-- The union of two or more shapes, by their classes. -/
theorem unionShape_classes (text : String) {shapes : List Shape} (many : 2 ≤ shapes.length) :
    unionShape text shapes =
      if shapes.all Shape.isEnumeration then .enumeration (shapes.flatMap Shape.values).eraseDups
      else if shapes.all Shape.isTextual then .string
      else if shapes.all Shape.isBoolean then .boolean
      else .unknown text .nonLiteralUnion := by
  rw [unionShape_many text many, Shape.joinedValues?_eq]
  cases shapes.all Shape.isEnumeration <;> rfl

end Classes

/-! ### Unions without texts -/

/-- How the values of enumerations that are joined are arranged depends on how they are arranged in each.
-/
def IsArrangement (arrange : List String → List String) : Prop :=
  ∀ ⦃lists lists' : List (List String)⦄, lists.map arrange = lists'.map arrange →
    arrange lists.flatten.eraseDups = arrange lists'.flatten.eraseDups

theorem isArrangement_id : IsArrangement id := by
  intro lists lists' same
  rw [List.map_id, List.map_id] at same
  rw [same]

/-- Strings in order. -/
def sorted (values : List String) : List String :=
  values.mergeSort fun first second => decide (first ≤ second)

/-- Two lists of the same strings have one order. -/
theorem sorted_eq_iff {values values' : List String} :
    sorted values = sorted values' ↔ values.Perm values' := by
  constructor
  · intro same
    have there : (sorted values).Perm values' := same ▸ List.mergeSort_perm values' _
    exact (List.mergeSort_perm values _).symm.trans there
  · intro perm
    have ordered : ∀ values : List String, (sorted values).Pairwise (· ≤ ·) := fun values => by
      have ordered : (sorted values).Pairwise fun first second => decide (first ≤ second) = true :=
        List.pairwise_mergeSort (by simpa using fun _ _ _ => le_trans) (by simpa using le_total)
          values
      simpa using ordered
    exact (((List.mergeSort_perm values _).trans perm).trans
      (List.mergeSort_perm values' _).symm).eq_of_pairwise
        (fun _ _ _ _ => le_antisymm) (ordered values) (ordered values')

theorem isArrangement_sorted : IsArrangement sorted := by
  intro lists lists' same
  refine sorted_eq_iff.mpr (eraseDups_perm fun value => List.Perm.mem_iff ?_)
  induction lists generalizing lists' with
  | nil =>
    rw [List.map_nil, eq_comm, List.map_eq_nil_iff] at same
    rw [same]
  | cons values rest ih =>
    obtain _ | ⟨values', rest'⟩ := lists'
    · cases same
    · obtain ⟨here, others⟩ := List.cons_eq_cons.mp same
      rw [List.flatten_cons, List.flatten_cons]
      exact (sorted_eq_iff.mp here).append (ih others)

section Unions

variable {arrange : List String → List String} {shapes shapes' : List Shape}
  {members members' : List Validator}

theorem all_map_textless {test : Shape → Bool}
    (blind : ∀ shape : Shape, test (shape.textless arrange) = test shape) (shapes : List Shape) :
    (shapes.map (Shape.textless arrange)).all test = shapes.all test := by
  rw [List.all_map]
  exact congrArg shapes.all (funext blind)

theorem Shape.values_textless {shape : Shape} (enumeration : shape.isEnumeration = true) :
    (shape.textless arrange).values = arrange shape.values := by
  obtain ⟨values, found⟩ := Option.isSome_iff_exists.mp enumeration
  rw [Shape.values, Shape.values?_textless, Shape.values, found]
  rfl

theorem map_values_textless (enumerations : shapes.all Shape.isEnumeration = true) :
    (shapes.map Shape.values).map arrange = (shapes.map (Shape.textless arrange)).map Shape.values := by
  rw [List.map_map, List.map_map]
  exact List.map_congr_left fun shape member =>
    (Shape.values_textless (List.all_eq_true.mp enumerations shape member)).symm

/-- Without texts, the union of shapes depends on the shapes without texts. -/
theorem unionShape_textless (arranges : IsArrangement arrange) (text text' : String)
    (same : shapes.map (Shape.textless arrange) = shapes'.map (Shape.textless arrange)) :
    (unionShape text shapes).textless arrange = (unionShape text' shapes').textless arrange := by
  have length : shapes.length = shapes'.length := by simpa using congrArg List.length same
  match shapes, shapes' with
  | [], [] => rw [unionShape, unionShape, Shape.textless, Shape.textless]
  | [shape], [shape'] => exact (List.cons_eq_cons.mp same).1
  | first :: second :: rest, first' :: second' :: rest' =>
    have many : 2 ≤ (first :: second :: rest).length := by simp
    generalize first :: second :: rest = shapes at same length many
    generalize first' :: second' :: rest' = shapes' at same length
    have class' : ∀ {test : Shape → Bool}, (∀ shape : Shape, test (shape.textless arrange) = test shape) →
        shapes'.all test = shapes.all test := fun blind => by
      rw [← all_map_textless blind shapes', ← same, all_map_textless blind]
    rw [unionShape_classes text many, unionShape_classes text' (length ▸ many),
      class' (Shape.isEnumeration_textless arrange), class' (Shape.isTextual_textless arrange),
      class' (Shape.isBoolean_textless arrange)]
    split
    · rename_i enumerations
      have enumerations' := (class' (Shape.isEnumeration_textless arrange)).trans enumerations
      have values : (shapes.map Shape.values).map arrange = (shapes'.map Shape.values).map arrange := by
        rw [map_values_textless enumerations, map_values_textless enumerations', same]
      rw [Shape.textless, Shape.textless, List.flatMap_def, List.flatMap_def, arranges values]
    · split
      · rfl
      · split
        · rfl
        · rw [Shape.textless, Shape.textless]

/-- **Without texts, a union depends on its members without texts.** -/
theorem unionOf_textless (arranges : IsArrangement arrange) (text text' : String)
    (same : members.map (Validator.textless arrange) = members'.map (Validator.textless arrange)) :
    (unionOf text members).textless arrange = (unionOf text' members').textless arrange := by
  have any : ∀ {test : Validator → Bool},
      (∀ member : Validator, test (member.textless arrange) = test member) →
        members.any test = members'.any test := fun {test} blind => by
    have turned : ∀ members : List Validator,
        (members.map (Validator.textless arrange)).any test = members.any test := fun members => by
      rw [List.any_map]
      exact congrArg members.any (funext blind)
    rw [← turned members, same, turned]
  have shapes : ∀ members : List Validator,
      ((members.filter fun member => !member.isNullOnly).map Validator.shape).map
        (Shape.textless arrange) =
      ((members.map (Validator.textless arrange)).filter fun member => !member.isNullOnly).map
        Validator.shape := fun members => by
    rw [List.filter_map, List.map_map, List.map_map]
    have blind : (fun member : Validator => !member.isNullOnly) ∘ Validator.textless arrange =
        fun member => !member.isNullOnly :=
      funext fun member => congrArg not (member.isNullOnly_textless arrange)
    rw [blind]
    exact List.map_congr_left fun member _ => by
      rw [Function.comp_apply, Function.comp_apply, Validator.textless_eq]
  rw [unionOf, unionOf, Validator.textless, Validator.textless,
    unionShape_textless arranges text text' ((shapes members).trans (same ▸ (shapes members').symm)),
    any fun member => by rw [Validator.textless_eq],
    any fun member => by rw [member.isNullOnly_textless arrange, Validator.textless_eq]]

/-! ### The order of members -/

theorem unionShape_perm (perm : shapes.Perm shapes') (text text' : String) :
    (unionShape text shapes).textless sorted = (unionShape text' shapes').textless sorted := by
  have length := perm.length_eq
  match shapes, shapes' with
  | [], [] => rw [unionShape, unionShape, Shape.textless, Shape.textless]
  | [shape], [shape'] => rw [List.singleton_perm_singleton.mp perm, unionShape, unionShape]
  | first :: second :: rest, first' :: second' :: rest' =>
    have many : 2 ≤ (first :: second :: rest).length := by simp
    generalize first :: second :: rest = shapes at perm length many
    generalize first' :: second' :: rest' = shapes' at perm length
    rw [unionShape_classes text many, unionShape_classes text' (length ▸ many), perm.all_eq,
      perm.all_eq, perm.all_eq]
    split
    · have values := eraseDups_perm fun value => (perm.flatMap_right Shape.values).mem_iff (a := value)
      rw [Shape.textless, Shape.textless, sorted_eq_iff.mpr values]
    · split
      · rfl
      · split
        · rfl
        · rw [Shape.textless, Shape.textless]

/-- **With sorted values, a union does not depend on the order of its members.** -/
theorem unionOf_perm (perm : members.Perm members') (text text' : String) :
    (unionOf text members).textless sorted = (unionOf text' members').textless sorted := by
  rw [unionOf, unionOf, Validator.textless, Validator.textless,
    unionShape_perm ((perm.filter _).map _) text text', perm.any_eq, perm.any_eq]

/-! ### Unions among members -/

/-- The shapes of the members that accept more than null. -/
def presentShapes (members : List Validator) : List Shape :=
  (members.filter fun member => !member.isNullOnly).map Validator.shape

theorem presentShapes_append (first second : List Validator) :
    presentShapes (first ++ second) = presentShapes first ++ presentShapes second := by
  rw [presentShapes, List.filter_append, List.map_append]
  rfl

/-- A union accepts nothing but null exactly where all members do. -/
theorem isNullOnly_unionOf (text : String) (members : List Validator) :
    (unionOf text members).isNullOnly = (presentShapes members).isEmpty := by
  have known : ∀ shape ∈ presentShapes members, ∀ text, shape ≠ .unknown text .nullOnly := by
    rintro shape member text rfl
    obtain ⟨one, held, same⟩ := List.mem_map.mp member
    have more := (List.mem_filter.mp held).2
    rw [Validator.isNullOnly, same] at more
    cases more
  change (Validator.ofShape (unionShape text (presentShapes members))).isNullOnly = _
  generalize presentShapes members = shapes at known
  rcases shapes with _ | ⟨shape, _ | ⟨second, rest⟩⟩
  · rfl
  · rw [unionShape, Validator.isNullOnly]
    split
    · exact absurd ‹_› (known _ (List.mem_singleton_self _) _)
    · rfl
  · rw [unionShape_classes text (by simp)]
    split
    · rfl
    · split
      · rfl
      · split <;> rfl

/-- Shapes in a row can be made a union of their own. -/
theorem unionShape_nested {group : List Shape} (present : group ≠ []) (before after : List Shape) :
    unionShape "" (before ++ unionShape "" group :: after) =
      unionShape "" (before ++ group ++ after) := by
  have single : ∀ shapes : List Shape,
      (shapes.map fun shape => [shape]).map (unionShape "") = shapes := fun shapes => by
    rw [List.map_map]
    exact List.map_id shapes
  have flat : ∀ shapes : List Shape, (shapes.map fun shape => [shape]).flatten = shapes :=
    fun shapes => by rw [← List.flatMap_def, List.flatMap_singleton']
  have inhabited : ∀ part ∈ (before.map fun shape => [shape]) ++
      group :: after.map fun shape => [shape], part ≠ [] := by
    intro part member
    rcases List.mem_append.mp member with inside | inside
    · obtain ⟨shape, _, rfl⟩ := List.mem_map.mp inside
      exact List.cons_ne_nil _ _
    · rcases List.mem_cons.mp inside with rfl | inside
      · exact present
      · obtain ⟨shape, _, rfl⟩ := List.mem_map.mp inside
        exact List.cons_ne_nil _ _
  have whole := unionShape_flatten inhabited
  rwa [List.map_append, List.map_cons, single, single, List.flatten_append, List.flatten_cons, flat,
    flat, ← List.append_assoc] at whole

/-- As a member, a union of some members counts with its own shape, unless they accept nothing but null. -/
theorem presentShapes_unionOf (inner : String) (group : List Validator) :
    presentShapes [unionOf inner group] =
      if (presentShapes group).isEmpty then [] else [unionShape inner (presentShapes group)] := by
  have own := isNullOnly_unionOf inner group
  split
  · rename_i empty
    rw [presentShapes, List.filter_cons_of_neg (by rw [own, empty]; decide)]
    rfl
  · rename_i inhabited
    rw [Bool.not_eq_true] at inhabited
    rw [presentShapes, List.filter_cons_of_pos (by rw [own, inhabited]; rfl)]
    rfl

/-- The shape does not change where members in a row are made a union of their own. -/
theorem unionShape_presentShapes_nested (arranges : IsArrangement arrange) (group before after : List Validator)
    (text text' inner : String) :
    (unionShape text (presentShapes (before ++ unionOf inner group :: after))).textless arrange =
      (unionShape text' (presentShapes (before ++ group ++ after))).textless arrange := by
  rw [← List.singleton_append, presentShapes_append, presentShapes_append, presentShapes_append,
    presentShapes_append, presentShapes_unionOf]
  split
  · rename_i empty
    rw [List.isEmpty_iff.mp empty, List.append_nil, List.nil_append]
    exact unionShape_textless arranges text text' rfl
  · rename_i present
    have inhabited : presentShapes group ≠ [] := fun none => present (List.isEmpty_iff.mpr none)
    rw [List.singleton_append]
    refine Eq.trans ?_ (unionShape_textless arranges "" text' rfl)
    rw [← unionShape_nested inhabited]
    refine unionShape_textless arranges text "" ?_
    rw [List.map_append, List.map_append, List.map_cons, List.map_cons,
      unionShape_textless arranges inner "" rfl]

/-- Of a union of some members, leave for null can be told without looking whether it accepts anything else:
where it does not, one of its members admits null. -/
theorem nullable_unionOf (inner : String) {group : List Validator} (present : group ≠ []) :
    ((unionOf inner group).nullable || (unionOf inner group).isNullOnly) =
      group.any fun member => member.nullable || member.isNullOnly := by
  cases empty : (unionOf inner group).isNullOnly with
  | false => exact Bool.or_false _
  | true =>
    rw [isNullOnly_unionOf, List.isEmpty_iff, presentShapes, List.map_eq_nil_iff,
      List.filter_eq_nil_iff] at empty
    obtain ⟨member, held⟩ := List.exists_mem_of_ne_nil group present
    have only := empty member held
    rw [Bool.not_eq_true', Bool.not_eq_false] at only
    rw [Bool.or_true, eq_comm, List.any_eq_true]
    exact ⟨member, held, by rw [only, Bool.or_true]⟩

/-- **Members in a row can be made a union of their own.** There is at least one: a union without members
accepts nothing, but as a member it admits null. -/
theorem unionOf_nested (arranges : IsArrangement arrange) {group : List Validator} (present : group ≠ [])
    (before after : List Validator) (text text' inner : String) :
    (unionOf text (before ++ unionOf inner group :: after)).textless arrange =
      (unionOf text' (before ++ group ++ after)).textless arrange := by
  have optional : (before ++ unionOf inner group :: after).any Validator.optional =
      (before ++ group ++ after).any Validator.optional := by
    rw [List.any_append, List.any_cons, List.any_append, List.any_append, Bool.or_assoc]
    rfl
  have nullable : ((before ++ unionOf inner group :: after).any fun member =>
      member.nullable || member.isNullOnly) =
        (before ++ group ++ after).any fun member => member.nullable || member.isNullOnly := by
    rw [List.any_append, List.any_cons, List.any_append, List.any_append, nullable_unionOf inner present,
      Bool.or_assoc]
  have shape := unionShape_presentShapes_nested arranges group before after text text' inner
  rw [Validator.textless_eq, Validator.textless_eq]
  exact congr (congrArg₂ Validator.mk shape optional) nullable

end Unions

end SwiftBindings
