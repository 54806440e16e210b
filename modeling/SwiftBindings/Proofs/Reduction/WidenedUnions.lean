/-
**Unions with further occurrences of their alternatives.**

A union sees little of its alternatives: whether they are null or absent values, strings or truth values,
and the value of a string literal (`LookAlike`). Types of one structure look alike, so a further
occurrence of an alternative changes nothing in what a union admits, and two or more alternatives are
classified as they were, but for the order in which the values of an enumeration come first
(`unionOutline_eq_iff`).

`Widening` relates a graph to one in which unions have further occurrences of their alternatives. All
other types are the same there, so a reduction that comes only to unions where these are harmless gives
the same outline in both graphs (`Widening.outline_reduceWithin`).
-/

import SwiftBindings.Proofs.FrontEnds.Alternatives
import SwiftBindings.Proofs.Reduction.RenamedVisits
import SwiftBindings.Proofs.TypeGraph.SameTypes

namespace SwiftBindings.Reduction

open Declared TypeGraph

/-! ### What a union sees of an alternative -/

/-- A union does not tell the two structures apart. -/
structure LookAlike (kind other : Kind) : Prop where
  absent : isAbsence other = isAbsence kind
  null : isNull other = isNull kind
  truth : isBooleanLike other = isBooleanLike kind
  text : isStringLike other = isStringLike kind
  value : literalValue? other = literalValue? kind

theorem LookAlike.trans {first second third : Kind} (alike : LookAlike first second)
    (alike' : LookAlike second third) : LookAlike first third :=
  ⟨alike'.absent.trans alike.absent, alike'.null.trans alike.null, alike'.truth.trans alike.truth,
    alike'.text.trans alike.text, alike'.value.trans alike.value⟩

theorem lookAlike_rename (place : TypeId → TypeId) (kind : Kind) : LookAlike kind (kind.rename place) :=
  ⟨isAbsence_rename place kind, isNull_rename place kind, isBooleanLike_rename place kind,
    isStringLike_rename place kind, literalValue?_rename place kind⟩

theorem lookAlike_of_matches {relate : TypeId → TypeId → Prop} {kind other : Kind}
    (matching : kind.Matches relate other) : LookAlike kind other := by
  cases matching <;> exact ⟨rfl, rfl, rfl, rfl, rfl⟩

/-- Types of one structure look alike. -/
theorem lookAlike_of_sameType {graph : Graph} {first second : TypeId}
    (same : graph.SameType first second) : LookAlike (graph.kind first) (graph.kind second) := by
  rcases same.kinds with matching | ⟨unfinished, unfinished'⟩
  · exact lookAlike_of_matches matching
  · rw [unfinished, unfinished']
    exact ⟨rfl, rfl, rfl, rfl, rfl⟩

/-! ### Two or more alternatives -/

/-- The shape of two or more alternatives, but for the text of an unknown value. -/
def unionOutline (kinds : List Kind) : Shape :=
  if kinds.all isBooleanLike then .boolean
  else match literalValues? kinds with
    | some values => .enumeration values
    | none => if kinds.all isStringLike then .string else .unknown "" .nonLiteralUnion

theorem outline_unionValidator (graph : Graph) (members : List TypeId) :
    (unionValidator graph members).outline = .ofShape (unionOutline (members.map graph.kind)) := by
  unfold unionValidator unionOutline
  dsimp only
  split
  · rfl
  · cases literalValues? (members.map graph.kind) with
    | some values => rfl
    | none =>
      dsimp only
      split
      · rfl
      · rfl

theorem literalValues?_of_isBooleanLike {kinds : List Kind} (present : kinds ≠ [])
    (truth : kinds.all isBooleanLike = true) : literalValues? kinds = none := by
  cases kinds with
  | nil => exact absurd rfl present
  | cons kind rest =>
    rw [List.all_cons, Bool.and_eq_true] at truth
    rw [literalValues?, List.mapM_cons]
    cases kind with
    | stringLiteral value => cases truth.1
    | _ => rfl

/-- Alternatives that are all strings and all truth values where others are come to the same, exactly if
they have the same values in the same order. -/
theorem unionOutline_eq_iff {kinds kinds' : List Kind} (present : kinds ≠ []) (present' : kinds' ≠ [])
    (truth : kinds'.all isBooleanLike = kinds.all isBooleanLike)
    (text : kinds'.all isStringLike = kinds.all isStringLike) :
    unionOutline kinds' = unionOutline kinds ↔ literalValues? kinds' = literalValues? kinds := by
  rw [unionOutline, unionOutline, truth, text]
  by_cases all : kinds.all isBooleanLike = true
  · rw [literalValues?_of_isBooleanLike present all, literalValues?_of_isBooleanLike present' (truth ▸ all)]
    simp [all]
  · rw [if_neg all, if_neg all]
    cases literalValues? kinds' with
    | some values' =>
      cases literalValues? kinds with
      | some values => simp
      | none =>
        dsimp only
        split <;> simp
    | none =>
      cases literalValues? kinds with
      | some values =>
        dsimp only
        split <;> simp
      | none => simp

theorem exists_value_of_mem {kinds : List Kind} {values : List String}
    (read : kinds.mapM literalValue? = some values) :
    ∀ kind ∈ kinds, ∃ value ∈ values, literalValue? kind = some value := by
  induction kinds generalizing values with
  | nil => exact fun _ member => absurd member List.not_mem_nil
  | cons first rest ih =>
    rw [List.mapM_cons] at read
    cases own : literalValue? first with
    | none =>
      rw [own] at read
      cases read
    | some value =>
      cases others : rest.mapM literalValue? with
      | none =>
        rw [own, others] at read
        cases read
      | some more =>
        rw [own, others] at read
        cases read
        refine List.forall_mem_cons.mpr ⟨⟨value, List.mem_cons_self, own⟩, fun kind member => ?_⟩
        obtain ⟨found, inside, same⟩ := ih others kind member
        exact ⟨found, List.mem_cons_of_mem _ inside, same⟩

/-- Alternatives behind others that they look like bring no further value. -/
theorem literalValues?_append {kinds more : List Kind}
    (alike : ∀ other ∈ more, ∃ kind ∈ kinds, LookAlike kind other) :
    literalValues? (kinds ++ more) = literalValues? kinds := by
  rw [literalValues?, literalValues?, List.mapM_append]
  cases read : kinds.mapM literalValue? with
  | none => rfl
  | some values =>
    obtain ⟨added, reads, known⟩ : ∃ added, more.mapM literalValue? = some added ∧
        ∀ value ∈ added, value ∈ values := by
      induction more with
      | nil => exact ⟨[], rfl, fun _ member => absurd member List.not_mem_nil⟩
      | cons first rest ih =>
        obtain ⟨⟨kind, member, looks⟩, others⟩ := List.forall_mem_cons.mp alike
        obtain ⟨value, inside, own⟩ := exists_value_of_mem read kind member
        obtain ⟨added, reads, known⟩ := ih others
        refine ⟨value :: added, ?_, List.forall_mem_cons.mpr ⟨inside, known⟩⟩
        rw [List.mapM_cons, looks.value, own, reads]
        rfl
    have nothing : added.removeAll values = [] := by
      rw [List.removeAll, List.filter_eq_nil_iff]
      intro value member
      simp [known value member]
    rw [reads]
    show some (values ++ added).eraseDups = some values.eraseDups
    rw [List.eraseDups_append, nothing, List.eraseDups_nil, List.append_nil]
section Repeated

variable {kind : Kind} {kinds : List Kind} (present : kinds ≠ [])
  (alike : ∀ other ∈ kinds, LookAlike kind other)

include present alike

theorem all_of_lookAlike {test : Kind → Bool} (sees : ∀ other, LookAlike kind other → test other = test kind) :
    kinds.all test = [kind].all test := by
  rw [List.all_cons, List.all_nil, Bool.and_true, Bool.eq_iff_iff, List.all_eq_true]
  constructor
  · intro every
    obtain ⟨other, member⟩ := List.exists_mem_of_ne_nil kinds present
    exact sees other (alike other member) ▸ every other member
  · intro own other member
    rw [sees other (alike other member), own]

theorem literalValues?_of_lookAlike : literalValues? kinds = literalValues? [kind] := by
  have values : kinds.mapM literalValue? = (List.replicate kinds.length kind).mapM literalValue? := by
    clear present
    induction kinds with
    | nil => rfl
    | cons first rest ih =>
      have own := (alike first List.mem_cons_self).value
      have others := ih fun other member => alike other (List.mem_cons_of_mem _ member)
      rw [List.length_cons, List.replicate_succ, List.mapM_cons, List.mapM_cons, own, others]
  obtain ⟨count, length⟩ : ∃ count, kinds.length = count + 1 :=
    Nat.exists_eq_succ_of_ne_zero fun none => present (List.length_eq_zero_iff.mp none)
  rw [literalValues?, literalValues?, values, length]
  clear values length
  cases value : literalValue? kind with
  | none => rw [List.replicate_succ, List.mapM_cons, List.mapM_cons, value]; rfl
  | some text =>
    have each : ∀ count, (List.replicate count kind).mapM literalValue? =
        some (List.replicate count text) := by
      intro count
      induction count with
      | zero => rfl
      | succ count ih => rw [List.replicate_succ, List.mapM_cons, value, ih]; rfl
    have once : (List.replicate (count + 1) text).eraseDups = [text] := by
      simp [List.replicate_succ, List.eraseDups_cons]
    rw [each, Option.map_some, once, List.mapM_cons, value]
    rfl

/-- Any number of alternatives that look like one come to what it comes to. -/
theorem unionOutline_of_lookAlike : unionOutline kinds = unionOutline [kind] :=
  (unionOutline_eq_iff (List.cons_ne_nil kind []) present
    (all_of_lookAlike present alike fun _ looks => looks.truth)
    (all_of_lookAlike present alike fun _ looks => looks.text)).mpr
      (literalValues?_of_lookAlike present alike)

end Repeated

/-! ### Further occurrences -/

/-- The second list has all members of the first one in order, and between them only members that look
like some of these. -/
structure Repeats (place : TypeId → TypeId) (graph wider : Graph) (members repeated : List TypeId) :
    Prop where
  keeps : (members.map place).Sublist repeated
  sees : ∀ again ∈ repeated, ∃ member ∈ members, LookAlike (graph.kind member) (wider.kind again)

theorem ne_nil_of_several {α : Type} {items : List α} (many : 2 ≤ items.length) : items ≠ [] := by
  rintro rfl
  cases many

section Repeats

variable {place : TypeId → TypeId} {graph wider : Graph} {members repeated : List TypeId}
  (looks : ∀ id, LookAlike (graph.kind id) (wider.kind (place id)))

include looks

theorem presentMembers_map (members : List TypeId) :
    presentMembers wider (members.map place) = (presentMembers graph members).map place := by
  rw [presentMembers, presentMembers, List.filter_map]
  refine congrArg (List.map place) (List.filter_congr fun member _ => ?_)
  rw [Function.comp_apply, (looks member).absent, (looks member).null]

variable (repeats : Repeats place graph wider members repeated)

include repeats

theorem Repeats.any (test : Kind → Bool)
    (sees : ∀ kind other, LookAlike kind other → test other = test kind) :
    (repeated.any fun member => test (wider.kind member)) =
      members.any fun member => test (graph.kind member) := by
  rw [Bool.eq_iff_iff, List.any_eq_true, List.any_eq_true]
  constructor
  · rintro ⟨again, member, holds⟩
    obtain ⟨own, inside, alike⟩ := repeats.sees again member
    exact ⟨own, inside, (sees _ _ alike).symm.trans holds⟩
  · rintro ⟨own, inside, holds⟩
    exact ⟨place own, repeats.keeps.subset (List.mem_map_of_mem inside),
      (sees _ _ (looks own)).trans holds⟩

theorem Repeats.all (test : Kind → Bool)
    (sees : ∀ kind other, LookAlike kind other → test other = test kind) :
    (repeated.map wider.kind).all test = (members.map graph.kind).all test := by
  have some := repeats.any looks (fun kind => !test kind) fun kind other alike => by
    rw [sees kind other alike]
  rw [List.all_map, List.all_map, List.all_eq_not_any_not, List.all_eq_not_any_not]
  exact congrArg not some

/-- What is left without null and absent values is repeated. -/
theorem Repeats.present :
    Repeats place graph wider (presentMembers graph members) (presentMembers wider repeated) where
  keeps := by
    rw [← presentMembers_map looks]
    exact repeats.keeps.filter _
  sees := by
    intro again member
    obtain ⟨inside, left⟩ := List.mem_filter.mp member
    obtain ⟨own, member, alike⟩ := repeats.sees again inside
    rw [alike.absent, alike.null] at left
    exact ⟨own, List.mem_filter.mpr ⟨member, left⟩, alike⟩

omit looks in
/-- Nothing is repeated, or there are several members with the further occurrences or without. -/
theorem Repeats.eq_map_or_several : repeated = members.map place ∨
    (∃ single, members = [single] ∧ 2 ≤ repeated.length) ∨ 2 ≤ members.length := by
  have longer := repeats.keeps.length_le
  match members with
  | [] =>
    refine .inl (List.eq_nil_iff_forall_not_mem.mpr fun again member => ?_)
    obtain ⟨_, inside, _⟩ := repeats.sees again member
    cases inside
  | [single] =>
    rcases Nat.eq_or_lt_of_le longer with same | more
    · exact .inl (repeats.keeps.eq_of_length same).symm
    · exact .inr (.inl ⟨single, rfl, more⟩)
  | _ :: _ :: _ => exact .inr (.inr (by simp))

omit looks in
theorem Repeats.several (many : 2 ≤ members.length) : 2 ≤ repeated.length := by
  have longer := repeats.keeps.length_le
  rw [List.length_map] at longer
  exact Nat.le_trans many longer

theorem Repeats.unionOutline_eq_iff (present : members ≠ []) :
    unionOutline (repeated.map wider.kind) = unionOutline (members.map graph.kind) ↔
      literalValues? (repeated.map wider.kind) = literalValues? (members.map graph.kind) := by
  have kept : repeated ≠ [] := by
    rintro rfl
    exact present (List.map_eq_nil_iff.mp (List.sublist_nil.mp repeats.keeps))
  exact Reduction.unionOutline_eq_iff (by simpa using present) (by simpa using kept)
    (repeats.all looks isBooleanLike fun _ _ alike => alike.truth)
    (repeats.all looks isStringLike fun _ _ alike => alike.text)

end Repeats

/-- Further occurrences are harmless: only null and absent values have any, or two or more other
alternatives are there without them, and strings among these come first in the order in which they did. -/
def KeepsPresent (place : TypeId → TypeId) (graph wider : Graph) (members repeated : List TypeId) : Prop :=
  presentMembers wider repeated = (presentMembers graph members).map place ∨
    2 ≤ (presentMembers graph members).length ∧
      literalValues? ((presentMembers wider repeated).map wider.kind) =
        literalValues? ((presentMembers graph members).map graph.kind)

/-! ### Classifying the same type in both graphs -/

theorem outline_gapOf (graph : Graph) (id : TypeId) (gap : Gap) :
    (gapOf graph id gap).outline = .ofGap "" gap := by
  rw [gapOf, Validator.ofGap, Validator.outline_ofShape, Shape.outline]
  rfl

theorem outline_eq_of_sameBut {text text' : String} {validator validator' : Validator}
    (same : validator.SameBut text text' validator') : validator'.outline = validator.outline := by
  rcases same with rfl | ⟨gap, optional, nullable, rfl, rfl⟩
  · rfl
  · rw [Validator.outline, Validator.outline, Shape.outline, Shape.outline]

/-- Of a union of several alternatives only the text can be different. -/
theorem outline_classify_many {graph : Graph} {reduce : TypeId → Visit Validator} {id : TypeId}
    {trail : Trail} {members : List TypeId} (found : graph.unionMembers? id = some members)
    (many : 2 ≤ (presentMembers graph members).length) :
    (classify graph reduce id trail).1.outline =
      (Validator.ofShape (unionOutline ((presentMembers graph members).map graph.kind))).admitting
        (members.any fun member => isAbsence (graph.kind member))
        (members.any fun member => isNull (graph.kind member)) := by
  rw [classify_union_many found rfl many, ← outline_unionValidator]
  exact Validator.outline_admitting _ _ _

theorem outline_reduce_many {graph : Graph} {id : TypeId} {members : List TypeId}
    (found : graph.unionMembers? id = some members) (many : 2 ≤ (presentMembers graph members).length) :
    (reduce graph id).outline =
      (Validator.ofShape (unionOutline ((presentMembers graph members).map graph.kind))).admitting
        (members.any fun member => isAbsence (graph.kind member))
        (members.any fun member => isNull (graph.kind member)) := by
  rw [reduce, reduceOn, reduceWithin_succ maximalNesting (by decide) List.not_mem_nil]
  exact outline_classify_many found many

section Classify

variable {place : TypeId → TypeId} {graph wider : Graph} {reduce reduce' : TypeId → Visit Validator}
  {trail trail' : Trail}
  (alike : ∀ part, (reduce' (place part) trail').1.outline = (reduce part trail).1.outline)

include alike

theorem outlines_reduceFields (restores : ∀ id trail, (reduce id trail).2 = trail)
    (restores' : ∀ id trail, (reduce' id trail).2 = trail) (properties : List Property) :
    Field.outlines (reduceFields reduce' (properties.map (Property.rename place)) trail').1 =
      Field.outlines (reduceFields reduce properties trail).1 := by
  rw [fields_reduceFields restores, fields_reduceFields restores', List.map_map]
  induction properties with
  | nil => rfl
  | cons property rest ih =>
    rw [List.map_cons, List.map_cons, Field.outlines_declare, ← ih, ← alike property.type]
    exact Field.outlines_declare _ _ _ _

/-- A union whose further occurrences are harmless is classified as before. -/
theorem outline_classify_union (looks : ∀ id, LookAlike (graph.kind id) (wider.kind (place id)))
    {members repeated : List TypeId} (repeats : Repeats place graph wider members repeated)
    (harmless : KeepsPresent place graph wider members repeated) {id id' : TypeId}
    (found : graph.unionMembers? id = some members)
    (found' : wider.unionMembers? id' = some repeated) :
    (classify wider reduce' id' trail').1.outline = (classify graph reduce id trail).1.outline := by
  have absent := repeats.any looks isAbsence fun _ _ alike => alike.absent
  have null := repeats.any looks isNull fun _ _ alike => alike.null
  have left := repeats.present looks
  -- Two or more alternatives are left in both lists.
  have several : 2 ≤ (presentMembers graph members).length →
      literalValues? ((presentMembers wider repeated).map wider.kind) =
        literalValues? ((presentMembers graph members).map graph.kind) →
      (classify wider reduce' id' trail').1.outline = (classify graph reduce id trail).1.outline := by
    intro many values
    rw [outline_classify_many found many, outline_classify_many found' (left.several many), absent, null,
      (left.unionOutline_eq_iff looks (ne_nil_of_several many)).mpr values]
  rcases harmless with same | ⟨many, values⟩
  · match kept : presentMembers graph members with
    | [] =>
      rw [kept] at same
      rw [classify_union_none found kept, classify_union_none found' same, absent, null]
      dsimp only
      rw [Validator.outline_admitting, Validator.outline_admitting, outline_gapOf, outline_gapOf]
    | [single] =>
      rw [kept] at same
      rw [classify_union_one found kept, classify_union_one found' same, absent, null]
      dsimp only
      rw [Validator.outline_admitting, Validator.outline_admitting, alike single]
    | first :: second :: rest =>
      refine several (by simp [kept]) ?_
      rw [same, List.map_map, literalValues?, literalValues?, List.mapM_map, List.mapM_map]
      refine congrArg (fun read : TypeId → Option String =>
        ((presentMembers graph members).mapM read).map List.eraseDups) (funext fun member => ?_)
      exact (looks member).value
  · exact several many values

end Classify

/-! ### Graphs with widened unions -/

/-- The second graph is the first one with further occurrences of alternatives in its unions. All other
types have the same structure at their new places, and the text of none names another table. -/
structure Widening (place : TypeId → TypeId) (graph wider : Graph) : Prop where
  method : place methodType = methodType
  injective : Function.Injective place
  kind : ∀ id, graph.unionMembers? id = none → graph.SameUnder place wider id (place id)
  argument : ∀ id, graph.unionMembers? id = none →
    identifierArgument? (wider.text (place id)) = identifierArgument? (graph.text id)
  union : ∀ id members, graph.unionMembers? id = some members → ∃ repeated,
    wider.unionMembers? (place id) = some repeated ∧ (members.map place).Sublist repeated ∧
      ∀ again ∈ repeated, ∃ member ∈ members, wider.SameType (place member) again

/-- If the type is a union, its further occurrences are harmless. -/
def Harmless (place : TypeId → TypeId) (graph wider : Graph) (id : TypeId) : Prop :=
  ∀ members repeated, graph.unionMembers? id = some members →
    wider.unionMembers? (place id) = some repeated → KeepsPresent place graph wider members repeated

theorem harmless_iff (place : TypeId → TypeId) {graph wider : Graph} {id : TypeId}
    {members repeated : List TypeId} (found : graph.unionMembers? id = some members)
    (found' : wider.unionMembers? (place id) = some repeated) :
    Harmless place graph wider id ↔ KeepsPresent place graph wider members repeated := by
  simp [Harmless, found, found']

section Widening

variable {place : TypeId → TypeId} {graph wider : Graph} (widening : Widening place graph wider)

include widening

theorem Widening.butUnions : graph.RenamesButUnions place wider where
  method := widening.method
  kind id := by
    cases found : graph.unionMembers? id with
    | none => exact .inl (widening.kind id found)
    | some members =>
      obtain ⟨repeated, found', _⟩ := widening.union id members found
      exact .inr ⟨members, repeated, Graph.kind_eq_union found, Graph.kind_eq_union found'⟩

theorem Widening.looks (id : TypeId) : LookAlike (graph.kind id) (wider.kind (place id)) := by
  rcases widening.butUnions.kind id with same | ⟨_, _, kind, kind'⟩
  · rw [same]
    exact lookAlike_rename place _
  · rw [kind, kind']
    exact ⟨rfl, rfl, rfl, rfl, rfl⟩

theorem Widening.repeats {id : TypeId} {members repeated : List TypeId}
    (found : graph.unionMembers? id = some members)
    (found' : wider.unionMembers? (place id) = some repeated) :
    Repeats place graph wider members repeated := by
  obtain ⟨others, same, keeps, types⟩ := widening.union id members found
  rw [found', Option.some.injEq] at same
  subst same
  refine ⟨keeps, fun again inside => ?_⟩
  obtain ⟨member, own, same⟩ := types again inside
  exact ⟨member, own, (widening.looks member).trans (lookAlike_of_sameType same)⟩

/-- A union with the same alternatives in both graphs. -/
theorem Widening.harmless_of_same {id : TypeId} (same : graph.SameUnder place wider id (place id)) :
    Harmless place graph wider id := by
  intro members repeated found found'
  rw [unionMembers?_rename same, found, Option.map_some, Option.some.injEq] at found'
  subst found'
  exact .inl (presentMembers_map widening.looks members)

section Single

variable {id : TypeId} (single : graph.unionMembers? id = none)

include single

theorem Widening.identifierTable?_eq :
    identifierTable? wider (place id) = identifierTable? graph id := by
  rw [identifierTable?, identifierTable?, widening.argument id single,
    brandedTable?_butUnions widening.butUnions (widening.kind id single)]

theorem Widening.fieldProperties_eq :
    fieldProperties wider (place id) = (fieldProperties graph id).map (Property.rename place) := by
  have properties : wider.properties (place id) = (graph.properties id).map (Property.rename place) :=
    propertiesWithin_rename widening.butUnions _ (widening.kind id single)
  rw [fieldProperties, fieldProperties, properties, List.filter_map]
  rfl

variable {reduce reduce' : TypeId → Visit Validator} {trail trail' : Trail}
  (alike : ∀ part, (reduce' (place part) trail').1.outline = (reduce part trail).1.outline)
  (restores : ∀ id trail, (reduce id trail).2 = trail)
  (restores' : ∀ id trail, (reduce' id trail).2 = trail)

include alike restores restores'

/-- Lists, mappings and objects are classified alike, if their parts are reduced alike. -/
theorem Widening.outline_classifySingle_parts (atom : atomValidator? graph id = none)
    (atom' : atomValidator? wider (place id) = none) :
    (classifySingle wider reduce' (place id) trail').1.outline =
      (classifySingle graph reduce id trail).1.outline := by
  have same := widening.kind id single
  have list := arrayElement?_rename same
  have index : wider.index? (place id) = (graph.index? id).map place :=
    indexWithin_rename widening.butUnions _ same
  have properties := widening.fieldProperties_eq single
  cases held : graph.arrayElement? id with
  | some element =>
    rw [held] at list
    rw [classifySingle_array atom held, classifySingle_array atom' list]
    dsimp only
    rw [Validator.outline_ofShape, Validator.outline_ofShape, Shape.outline, Shape.outline, alike]
  | none =>
    rw [held] at list
    cases indexed : graph.index? id with
    | some value =>
      rw [indexed] at index
      rw [classifySingle_record atom held indexed, classifySingle_record atom' list index]
      dsimp only
      rw [Validator.outline_ofShape, Validator.outline_ofShape, Shape.outline, Shape.outline, alike]
    | none =>
      rw [indexed] at index
      by_cases absent : fieldProperties graph id = []
      · rw [absent] at properties
        rw [classifySingle_empty atom held indexed absent,
          classifySingle_empty atom' list index properties, outline_gapOf, outline_gapOf]
      · have present : fieldProperties wider (place id) ≠ [] := by
          rw [properties]
          exact fun empty => absent (List.map_eq_nil_iff.mp empty)
        rw [classifySingle_object atom held indexed absent,
          classifySingle_object atom' list index present, properties]
        dsimp only
        rw [Validator.outline_ofShape, Validator.outline_ofShape, Shape.outline, Shape.outline,
          outlines_reduceFields alike restores restores']

/-- A type that is no union is classified alike, if its parts are reduced alike. -/
theorem Widening.outline_classifySingle :
    (classifySingle wider reduce' (place id) trail').1.outline =
      (classifySingle graph reduce id trail).1.outline := by
  have atoms := atomValidator?_rename (widening.kind id single) (widening.identifierTable?_eq single)
  cases atom : atomValidator? graph id with
  | some validator =>
    cases atom' : atomValidator? wider (place id) with
    | some validator' =>
      rw [atom, atom'] at atoms
      rw [classifySingle_atom atom, classifySingle_atom atom']
      exact outline_eq_of_sameBut (Option.rel_some_some.mp atoms)
    | none =>
      rw [atom, atom'] at atoms
      exact absurd atoms Option.not_rel_some_none
  | none =>
    cases atom' : atomValidator? wider (place id) with
    | some _ =>
      rw [atom, atom'] at atoms
      exact absurd atoms Option.not_rel_none_some
    | none => exact widening.outline_classifySingle_parts single alike restores restores' atom atom'

end Single

end Widening

theorem kind_outside {graph : Graph} {id : TypeId} (outside : graph.nodes.size ≤ id) :
    graph.kind id = .opaqueType := by
  rw [Graph.kind, Array.getElem?_eq_none outside]
  rfl

theorem text_outside {graph : Graph} {id : TypeId} (outside : graph.nodes.size ≤ id) :
    graph.text id = "" := by
  rw [Graph.text, Array.getElem?_eq_none outside]
  rfl

/-- A graph in which one union has further occurrences of its alternatives, and all other nodes are the
same. -/
theorem widening_of_nodes {place : TypeId → TypeId} {graph wider : Graph} {union : TypeId}
    {members repeated : List TypeId} (method : place methodType = methodType)
    (injective : Function.Injective place)
    (outside : ∀ id, graph.nodes.size ≤ id → wider.nodes.size ≤ place id)
    (inside : ∀ id < graph.nodes.size, id ≠ union → wider.kind (place id) = (graph.kind id).rename place ∧
      identifierArgument? (wider.text (place id)) = identifierArgument? (graph.text id))
    (found : graph.unionMembers? union = some members)
    (found' : wider.unionMembers? (place union) = some repeated)
    (keeps : (members.map place).Sublist repeated)
    (same : ∀ again ∈ repeated, ∃ member ∈ members, wider.SameType (place member) again) :
    Widening place graph wider ∧ ∀ id, id ≠ union → Harmless place graph wider id := by
  have other : ∀ id, graph.unionMembers? id = none → id ≠ union := by
    rintro id single rfl
    rw [found] at single
    cases single
  have kind : ∀ id, id ≠ union → graph.SameUnder place wider id (place id) := by
    intro id apart
    rcases Nat.lt_or_ge id graph.nodes.size with held | free
    · exact (inside id held apart).1
    · rw [Graph.SameUnder, kind_outside free, kind_outside (outside id free)]
      rfl
  have widening : Widening place graph wider := {
    method := method
    injective := injective
    kind := fun id single => kind id (other id single)
    argument := by
      intro id single
      rcases Nat.lt_or_ge id graph.nodes.size with held | free
      · exact (inside id held (other id single)).2
      · rw [text_outside free, text_outside (outside id free)]
    union := by
      intro id others held
      by_cases own : id = union
      · subst own
        rw [found, Option.some.injEq] at held
        exact ⟨repeated, found', held ▸ keeps, held ▸ same⟩
      · refine ⟨others.map place, ?_, List.Sublist.refl _, fun again listed => ?_⟩
        · rw [unionMembers?_rename (kind id own), held]
          rfl
        · obtain ⟨member, held, rfl⟩ := List.mem_map.mp listed
          exact ⟨member, held, Graph.SameType.refl _ _⟩ }
  exact ⟨widening, fun id own => widening.harmless_of_same (kind id own)⟩

section Visits

variable {place : TypeId → TypeId} {graph wider : Graph} (widening : Widening place graph wider)

include widening

/-- **A type is reduced to the same outline in both graphs**, if further occurrences are harmless in all
unions that the reduction is not inside of. -/
theorem Widening.outline_reduceWithin (levels : Nat) {id : TypeId} {trail trail' : Trail}
    (matching : trail.Matches place (fun _ => True) trail')
    (spared : ∀ union, Harmless place graph wider union ∨ union ∈ trail.chain) :
    (reduceWithin wider levels (place id) trail').1.outline =
      (reduceWithin graph levels id trail).1.outline := by
  induction levels generalizing id trail trail' with
  | zero => exact (outline_gapOf _ _ _).trans (outline_gapOf _ _ _).symm
  | succ levels ih =>
    by_cases deep : maximalNesting ≤ trail.depth
    · rw [reduceWithin_deep levels deep, reduceWithin_deep levels (matching.depth ▸ deep),
        outline_gapOf, outline_gapOf]
    · have shallow := Nat.lt_of_not_le deep
      have shallow' : trail'.depth < maximalNesting := matching.depth ▸ shallow
      by_cases met : id ∈ trail.chain
      · have met' := (matching.chain id trivial).mpr met
        rw [reduceWithin_cycle levels shallow met, reduceWithin_cycle levels shallow' met',
          outline_gapOf, outline_gapOf]
      · have new : place id ∉ trail'.chain := fun held => met ((matching.chain id trivial).mp held)
        have alike : ∀ part, (reduceWithin wider levels (place part) (trail'.enter (place id))).1.outline =
            (reduceWithin graph levels part (trail.enter id)).1.outline :=
          fun part => ih (matching.enter widening.injective id)
            fun union => (spared union).imp_right (List.mem_cons_of_mem id)
        rw [reduceWithin_succ levels shallow met, reduceWithin_succ levels shallow' new]
        cases found : graph.unionMembers? id with
        | none =>
          have found' := unionMembers?_rename (widening.kind id found)
          rw [found] at found'
          rw [classify_single found, classify_single found']
          exact widening.outline_classifySingle found alike (trail_reduceWithin levels)
            (trail_reduceWithin levels)
        | some members =>
          obtain ⟨repeated, found', _⟩ := widening.union id members found
          have harmless := (spared id).resolve_right met members repeated found found'
          exact outline_classify_union alike widening.looks (widening.repeats found found') harmless found
            found'

end Visits

end SwiftBindings.Reduction
