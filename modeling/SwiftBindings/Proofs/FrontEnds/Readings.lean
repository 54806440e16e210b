/-
**Nodes that read as validators.**

A node reads as a validator when every visit of it that has room for its parts gives this validator in
outline, in the graph at hand and in all later ones (`Graph.Reduces`). A union is read from its
members: each offers one alternative (`Graph.Offers`), and the classification of the members agrees
with that of the alternatives (`Graph.Shows.reduces`).
-/

import Mathlib.Data.List.Forall2
import SwiftBindings.Proofs.FrontEnds.Builders
import SwiftBindings.Proofs.Reduction.Visits

namespace SwiftBindings.TypeGraph

open Declared Reduction

/-! ### Readings -/

/-- Every visit of the type that has room for the given number of nested types gives this outline and
comes back to the trail that it started from. Parts stand before the types they are parts of, so no
type on the trail is met again. -/
def Graph.Reduces (graph : Graph) (depth : Nat) (id : TypeId) (outline : Validator) : Prop :=
  ∀ later : Graph, graph.KeepsNodes later → ∀ (levels : Nat) (trail : Trail), depth ≤ levels →
    trail.depth + depth ≤ maximalNesting → (∀ met ∈ trail.chain, id < met) →
      ∃ result, reduceWithin later levels id trail = (result, trail) ∧ result.outline = outline

/-- The structure is taken for the same class of values as the shape. -/
structure Kind.Agrees (kind : Kind) (shape : Shape) : Prop where
  boolean : isBooleanLike kind = shape.isBoolean
  textual : isStringLike kind = shape.isTextual
  values : shape.values? = (literalValue? kind).map fun value => [value]
  stays : isAbsence kind = false ∧ isNull kind = false
  single : ∀ members, kind ≠ .union members

/-- A member of a union that brings one alternative. -/
inductive Graph.Offers (graph : Graph) (depth : Nat) (id : TypeId) : Alternative → Prop where
  | absence (stands : graph.Stands id (.primitive .undefined)) : graph.Offers depth id .absence
  | null (stands : graph.Stands id (.primitive .null)) : graph.Offers depth id .null
  | present {kind : Kind} {text : String} {shape : Shape}
    (node : graph.nodes[id]? = some ⟨kind, text⟩) (agrees : kind.Agrees shape)
    (reduces : graph.Reduces depth id (.ofShape shape)) : graph.Offers depth id (.present shape)

/-- A type that has these alternatives, as one or as a union. -/
inductive Graph.Shows (graph : Graph) : Nat → TypeId → List Alternative → Prop where
  | single {depth : Nat} {id : TypeId} {alternative : Alternative}
    (offers : graph.Offers depth id alternative) : graph.Shows depth id [alternative]
  | union {depth : Nat} {id : TypeId} {alternatives : List Alternative} {members : List TypeId}
    {text : String} (node : graph.nodes[id]? = some ⟨.union members, text⟩)
    (before : ∀ member ∈ members, member < id)
    (offers : List.Forall₂ (graph.Offers depth) members alternatives) :
    graph.Shows (depth + 1) id alternatives

section Laws

variable {graph : Graph} {depth depth' : Nat} {id : TypeId}

theorem Graph.Reduces.mono {outline : Validator} (reduces : graph.Reduces depth id outline)
    (less : depth ≤ depth') : graph.Reduces depth' id outline := by
  intro later keeps levels trail enough room before
  exact reduces later keeps levels trail (Nat.le_trans less enough)
    (Nat.le_trans (Nat.add_le_add_left less _) room) before

theorem Graph.Offers.mono {alternative : Alternative} (offers : graph.Offers depth id alternative)
    (less : depth ≤ depth') : graph.Offers depth' id alternative := by
  cases offers with
  | absence stands => exact .absence stands
  | null stands => exact .null stands
  | present node agrees reduces => exact .present node agrees (reduces.mono less)

theorem Graph.Shows.mono {alternatives : List Alternative} (shows : graph.Shows depth id alternatives)
    (less : depth ≤ depth') : graph.Shows depth' id alternatives := by
  cases shows with
  | single offers => exact .single (offers.mono less)
  | union node before offers =>
    cases depth' with
    | zero => exact absurd less (Nat.not_succ_le_zero _)
    | succ depth' =>
      exact .union node before (offers.imp fun _ _ offers => offers.mono (Nat.le_of_succ_le_succ less))

theorem Graph.Reduces.keep {earlier later : Graph} (keeps : earlier.KeepsNodes later)
    {outline : Validator} (reduces : earlier.Reduces depth id outline) :
    later.Reduces depth id outline :=
  fun last further => reduces last fun other node found => further other node (keeps other node found)

instance (outline : Validator) : Kept fun graph => graph.Reduces depth id outline :=
  ⟨fun keeps reduces => reduces.keep keeps⟩

theorem Graph.Offers.keep {earlier later : Graph} (keeps : earlier.KeepsNodes later)
    {alternative : Alternative} (offers : earlier.Offers depth id alternative) :
    later.Offers depth id alternative := by
  cases offers with
  | absence stands => exact .absence (stands.keep keeps)
  | null stands => exact .null (stands.keep keeps)
  | present node agrees reduces => exact .present (keeps id _ node) agrees (reduces.keep keeps)

theorem Graph.Shows.keep {earlier later : Graph} (keeps : earlier.KeepsNodes later)
    {alternatives : List Alternative} (shows : earlier.Shows depth id alternatives) :
    later.Shows depth id alternatives := by
  cases shows with
  | single offers => exact .single (offers.keep keeps)
  | union node before offers =>
    exact .union (keeps id _ node) before (offers.imp fun _ _ offers => offers.keep keeps)

end Laws

/-! ### Unions -/

section Unions

variable {graph : Graph} {depth : Nat} {id : TypeId}

theorem Graph.Offers.isAbsence_kind {alternative : Alternative}
    (offers : graph.Offers depth id alternative) :
    isAbsence (graph.kind id) = alternative.isAbsence := by
  cases offers with
  | absence stands => rw [kind_of_stands stands]; rfl
  | null stands => rw [kind_of_stands stands]; rfl
  | present node agrees => rw [Graph.kind_of_getElem? node]; exact agrees.stays.1

theorem Graph.Offers.isNull_kind {alternative : Alternative}
    (offers : graph.Offers depth id alternative) :
    isNull (graph.kind id) = alternative.isNull := by
  cases offers with
  | absence stands => rw [kind_of_stands stands]; rfl
  | null stands => rw [kind_of_stands stands]; rfl
  | present node agrees => rw [Graph.kind_of_getElem? node]; exact agrees.stays.2

theorem Graph.Offers.unionMembers?_eq_none {alternative : Alternative}
    (offers : graph.Offers depth id alternative) : graph.unionMembers? id = none := by
  rw [Graph.unionMembers?]
  cases offers with
  | absence stands => rw [kind_of_stands stands]
  | null stands => rw [kind_of_stands stands]
  | @present kind text shape node agrees =>
    rw [Graph.kind_of_getElem? node]
    cases kind with
    | union members => exact absurd rfl (agrees.single members)
    | _ => rfl

/-- A member with a shape. -/
def Graph.Presents (graph : Graph) (depth : Nat) (id : TypeId) (shape : Shape) : Prop :=
  (graph.kind id).Agrees shape ∧ graph.Reduces depth id (.ofShape shape)

variable {members : List TypeId} {alternatives : List Alternative}
  (offers : List.Forall₂ (graph.Offers depth) members alternatives)

include offers

theorem any_isAbsence_kind : (members.any fun member => isAbsence (graph.kind member)) =
    alternatives.any Alternative.isAbsence := by
  induction offers with
  | nil => rfl
  | cons first _ ih => rw [List.any_cons, List.any_cons, ih, first.isAbsence_kind]

theorem any_isNull_kind : (members.any fun member => isNull (graph.kind member)) =
    alternatives.any Alternative.isNull := by
  induction offers with
  | nil => rfl
  | cons first _ ih => rw [List.any_cons, List.any_cons, ih, first.isNull_kind]

/-- The members that are neither null nor absent have the shapes of the alternatives. -/
theorem forall₂_presents : List.Forall₂ (graph.Presents depth)
    (members.filter fun member => !isAbsence (graph.kind member) && !isNull (graph.kind member))
    (alternatives.filterMap Alternative.shape?) := by
  induction offers with
  | nil => exact .nil
  | cons first _ ih =>
    rw [List.filter_cons, first.isAbsence_kind, first.isNull_kind]
    cases first with
    | absence => exact ih
    | null => exact ih
    | present node agrees reduces =>
      exact .cons ⟨(Graph.kind_of_getElem? node).symm ▸ agrees, reduces⟩ ih

omit offers in
theorem joinedValues?_eq_literalValues? {kinds : List Kind} {shapes : List Shape}
    (agree : List.Forall₂ Kind.Agrees kinds shapes) :
    Shape.joinedValues? shapes = literalValues? kinds := by
  have read : shapes.mapM Shape.values? =
      (kinds.mapM literalValue?).map fun values => values.map fun value => [value] := by
    induction agree with
    | nil => rfl
    | cons first _ ih =>
      rw [List.mapM_cons, List.mapM_cons, first.values, ih]
      cases literalValue? _ <;> [rfl; cases List.mapM literalValue? _ <;> rfl]
  rw [Shape.joinedValues?, literalValues?, read]
  cases kinds.mapM literalValue? with
  | none => rfl
  | some values =>
    show some (values.map fun value => [value]).flatten.eraseDups = some values.eraseDups
    rw [← List.flatMap_def, List.flatMap_singleton']

omit offers in
theorem all_isBooleanLike {kinds : List Kind} {shapes : List Shape}
    (agree : List.Forall₂ Kind.Agrees kinds shapes) :
    kinds.all isBooleanLike = shapes.all Shape.isBoolean := by
  induction agree with
  | nil => rfl
  | cons first _ ih => rw [List.all_cons, List.all_cons, first.boolean, ih]

omit offers in
theorem all_isStringLike {kinds : List Kind} {shapes : List Shape}
    (agree : List.Forall₂ Kind.Agrees kinds shapes) :
    kinds.all isStringLike = shapes.all Shape.isTextual := by
  induction agree with
  | nil => rfl
  | cons first _ ih => rw [List.all_cons, List.all_cons, first.textual, ih]

omit offers in
/-- Two or more members are classified as their shapes are. -/
theorem unionValidator_outline {shapes : List Shape}
    (agree : List.Forall₂ (fun member shape => (graph.kind member).Agrees shape) members shapes)
    (many : 2 ≤ shapes.length) :
    (unionValidator graph members).outline = .ofShape (unionShape "" shapes) := by
  have kinds : List.Forall₂ Kind.Agrees (members.map graph.kind) shapes :=
    List.forall₂_map_left_iff.mpr agree
  have present : shapes ≠ [] := fun nothing => by
    rw [nothing] at many
    cases many
  rw [unionValidator, all_isBooleanLike kinds, all_isStringLike kinds,
    ← joinedValues?_eq_literalValues? kinds, unionShape_many "" many]
  -- Truth values are looked for first here, and last among shapes.
  by_cases booleans : shapes.all Shape.isBoolean = true
  · have other : shapes.all Shape.isTextual = false := by
      by_contra textual
      rw [Shape.isBoolean_of_isTextual present (Bool.not_eq_false _ ▸ textual)] at booleans
      cases booleans
    have none : Shape.joinedValues? shapes = none := by
      by_contra some
      obtain ⟨values, found⟩ := Option.ne_none_iff_exists'.mp some
      rw [Shape.isTextual_of_joinedValues? found] at other
      cases other
    rw [if_pos booleans, none, other, booleans]
    rfl
  · rw [if_neg booleans]
    cases Shape.joinedValues? shapes with
    | some values => rfl
    | none =>
      dsimp only
      rw [if_neg booleans]
      split <;> rfl

end Unions

/-! ### Visits -/

section Visits

variable {graph : Graph} {depth : Nat} {id : TypeId}

/-- A type reads as what it is classified as, over visits of parts that stand before it. -/
theorem Graph.reduces_of_classify {outline : Validator}
    (classified : ∀ later : Graph, graph.KeepsNodes later → ∀ (levels : Nat) (trail : Trail),
      depth ≤ levels → trail.depth + depth ≤ maximalNesting → (∀ met ∈ trail.chain, id ≤ met) →
        ∃ result, classify later (reduceWithin later levels) id trail = (result, trail) ∧
          result.outline = outline) :
    graph.Reduces (depth + 1) id outline := by
  intro later keeps levels trail enough room before
  obtain ⟨levels, rfl⟩ : ∃ fewer, levels = fewer + 1 := ⟨levels - 1, by omega⟩
  have new : id ∉ trail.chain := fun met => Nat.lt_irrefl _ (before id met)
  have room' : (trail.enter id).depth + depth ≤ maximalNesting := by
    show trail.depth + 1 + depth ≤ maximalNesting
    omega
  have before' : ∀ met ∈ (trail.enter id).chain, id ≤ met :=
    List.forall_mem_cons.mpr ⟨Nat.le_refl id, fun met held => Nat.le_of_lt (before met held)⟩
  obtain ⟨result, same, outline⟩ := classified later keeps levels (trail.enter id)
    (Nat.le_of_succ_le_succ enough) room' before'
  refine ⟨result, ?_, outline⟩
  rw [reduceWithin_succ levels (by omega) new, same, Trail.leave_enter]

/-! ### Structures -/

/-- A node of a structure that classification does not look into. -/
theorem Graph.Stands.reduces_atom {kind : Kind} (stands : graph.Stands id kind)
    (single : ∀ members, kind ≠ .union members) (other : ∀ parts, kind ≠ .intersection parts)
    {outline : Validator}
    (atom : ∀ later : Graph, later.kind id = kind → identifierTable? later id = none →
      ∃ validator, atomValidator? later id = some validator ∧ validator.outline = outline) :
    graph.Reduces 1 id outline := by
  have ⟨text, _, node, _⟩ := stands
  refine Graph.reduces_of_classify fun later keeps levels trail _ _ _ => ?_
  have kept := stands.keep keeps
  obtain ⟨validator, found, outline⟩ :=
    atom later (kind_of_stands kept) (identifierTable?_of_stands kept other)
  have alone : later.unionMembers? id = none := by
    rw [Graph.unionMembers?, kind_of_stands kept]
    cases kind with
    | union members => exact absurd rfl (single members)
    | _ => rfl
  refine ⟨validator, ?_, outline⟩
  rw [classify_single alone, classifySingle_atom found]
  rfl

theorem Graph.Stands.offers {kind : Kind} (stands : graph.Stands id kind) {shape : Shape}
    (agrees : kind.Agrees shape) (other : ∀ parts, kind ≠ .intersection parts)
    (primitive : primitiveShape? kind = some shape) (outlined : shape.outline = shape) :
    graph.Offers 1 id (.present shape) := by
  have ⟨text, _, node, _⟩ := stands
  refine .present node agrees (stands.reduces_atom agrees.single other fun later same none => ?_)
  refine ⟨.ofShape shape, ?_, by rw [Validator.outline_ofShape, outlined]⟩
  rw [atomValidator?, none, same, primitive]

theorem Graph.offers_leaf {leaf : Leaf} (stands : graph.Stands id leaf.kind) :
    graph.Offers 1 id leaf.alternative := by
  cases leaf with
  | null => exact .null stands
  | string | number | boolean | any | stringLiteral | numberLiteral | booleanLiteral =>
    exact stands.offers ⟨rfl, rfl, rfl, ⟨rfl, rfl⟩, fun _ => Kind.noConfusion⟩
      (fun _ => Kind.noConfusion) rfl (by rw [Shape.outline])

/-- A type that is known by its name reads as what its text names. -/
theorem Graph.offers_identifier {kind : Kind} {text table : String} {written : List Char}
    (node : graph.nodes[id]? = some ⟨kind, text⟩) (nominal : kind.isNominal = true)
    (reads : identifierArgument? text = some written) (named : unquoted? written = some table) :
    graph.Offers 1 id (.present (.id (some table))) := by
  have agrees : kind.Agrees (.id (some table)) := by
    cases kind with
    | intersection | unresolved | opaqueType | pending =>
      exact ⟨rfl, rfl, rfl, ⟨rfl, rfl⟩, fun _ => Kind.noConfusion⟩
    | _ => cases nominal
  refine .present node agrees (Graph.reduces_of_classify fun later keeps _ _ _ _ _ => ?_)
  have kept := keeps id _ node
  have single : later.unionMembers? id = none := by
    rw [Graph.unionMembers?, Graph.kind_of_getElem? kept]
    cases kind with
    | union members => cases nominal
    | _ => rfl
  have found : identifierTable? later id = some (some table) := by
    rw [identifierTable?, Graph.text_of_getElem? kept, reads, ← named]
  rw [classify_single single, classifySingle_identifier found]
  exact ⟨_, rfl, by rw [Validator.outline_ofShape, Shape.outline]⟩

/-- **A type reads as the validator of its alternatives.** -/
theorem Graph.Shows.reduces {alternatives : List Alternative}
    (shows : graph.Shows depth id alternatives) (positive : 0 < depth) :
    graph.Reduces depth id (.ofAlternatives alternatives) := by
  cases shows with
  | single offers =>
    cases offers with
    | absence stands =>
      refine (stands.reduces_atom (fun _ => Kind.noConfusion) (fun _ => Kind.noConfusion)
        fun later same none => ?_).mono positive
      refine ⟨(gapOf later id .nullOnly).admitting true false, ?_, rfl⟩
      rw [atomValidator?, none, same]
      rfl
    | null stands =>
      refine (stands.reduces_atom (fun _ => Kind.noConfusion) (fun _ => Kind.noConfusion)
        fun later same none => ?_).mono positive
      refine ⟨(gapOf later id .nullOnly).admitting false true, ?_, rfl⟩
      rw [atomValidator?, none, same]
      rfl
    | present node agrees reduces => exact reduces
  | @union depth _ _ members text node lower offers =>
    refine Graph.reduces_of_classify fun later keeps levels trail enough room before => ?_
    have offers := offers.imp fun _ _ offers => offers.keep keeps
    have found : later.unionMembers? id = some members := by
      rw [Graph.unionMembers?, Graph.kind_of_getElem? (keeps id _ node)]
    rw [Validator.ofAlternatives, ← any_isAbsence_kind offers, ← any_isNull_kind offers]
    have presents := forall₂_presents offers
    generalize present : members.filter (fun member =>
      !isAbsence (later.kind member) && !isNull (later.kind member)) = left at presents
    generalize alternatives.filterMap Alternative.shape? = shapes at presents
    cases presents with
    | nil =>
      rw [classify_union_none found present]
      exact ⟨_, rfl, rfl⟩
    | @cons member shape others rest first more =>
      cases more with
      | nil =>
        have inside : member ∈ members :=
          List.mem_of_mem_filter (present.symm ▸ List.mem_singleton_self member)
        obtain ⟨result, reduced, outline⟩ := first.2 later (fun _ _ found => found) levels trail enough
          room fun met held => Nat.lt_of_lt_of_le (lower member inside) (before met held)
        rw [classify_union_one found present, reduced]
        exact ⟨_, rfl, by rw [Validator.outline_admitting, outline]; rfl⟩
      | @cons second shape' others rest next more =>
        have agree := (List.Forall₂.cons first (.cons next more)).imp fun _ _ presents => presents.1
        rw [classify_union_many found present (by simp)]
        refine ⟨_, rfl, ?_⟩
        rw [Validator.outline_admitting, unionValidator_outline agree (by simp)]
        rfl

/-- A type with one part offers the shape that its classification puts around the part. -/
theorem Graph.Stands.offers_around {kind : Kind} {part : TypeId} {outline : Validator}
    (stands : graph.Stands id kind) (around : Validator → Shape) (inside : part ∈ kind.parts)
    (agrees : kind.Agrees (around outline))
    (outlined : ∀ validator : Validator, (around validator).outline = around validator.outline)
    (classified : ∀ later : Graph, later.Stands id kind →
      ∀ (reduce : TypeId → Trail → Validator × Trail) (trail : Trail),
        classify later reduce id trail =
          (.ofShape (around (reduce part trail).1), (reduce part trail).2))
    (reduces : graph.Reduces depth part outline) :
    graph.Offers (depth + 1) id (.present (around outline)) := by
  have ⟨text, _, node, before⟩ := stands
  have lower : part < id := before part inside
  refine .present node agrees
    (Graph.reduces_of_classify fun later keeps levels trail enough room before => ?_)
  obtain ⟨result, reduced, same⟩ := reduces later keeps levels trail enough room
    fun met held => Nat.lt_of_lt_of_le lower (before met held)
  rw [classified later (stands.keep keeps), reduced]
  exact ⟨_, rfl, by rw [Validator.outline_ofShape, outlined, same]⟩

theorem Graph.offers_array {element : TypeId} {outline : Validator}
    (stands : graph.Stands id (.array element)) (reduces : graph.Reduces depth element outline) :
    graph.Offers (depth + 1) id (.present (.array outline)) :=
  stands.offers_around .array (List.mem_singleton_self element)
    ⟨rfl, rfl, rfl, ⟨rfl, rfl⟩, fun _ => Kind.noConfusion⟩ (fun _ => Shape.outline.eq_def _)
    (fun _ kept _ _ => classify_array kept) reduces

theorem Graph.offers_record {value : TypeId} {outline : Validator}
    (stands : graph.Stands id (.object ⟨[], some value⟩)) (reduces : graph.Reduces depth value outline) :
    graph.Offers (depth + 1) id (.present (.record none outline)) :=
  stands.offers_around (.record none) (List.mem_singleton_self value)
    ⟨rfl, rfl, rfl, ⟨rfl, rfl⟩, fun _ => Kind.noConfusion⟩ (fun _ => Shape.outline.eq_def _)
    (fun _ kept _ _ => classify_record kept) reduces

/-- A property that reads as a field. -/
structure Graph.Declares (graph : Graph) (depth : Nat) (property : Property) (field : Field) :
    Prop where
  own : isInherited property.name = false
  present : property.optional = false
  reads : ∃ outline, graph.Reduces depth property.type outline ∧
    field = .declare property.name outline false

theorem isInherited_of_declares {properties : List Property} {fields : List Field}
    (declares : List.Forall₂ (graph.Declares depth) properties fields) :
    ∀ property ∈ properties, isInherited property.name = false := by
  induction declares with
  | nil => exact fun _ member => absurd member List.not_mem_nil
  | cons first _ ih => exact List.forall_mem_cons.mpr ⟨first.own, ih⟩

/-- Properties read as fields one after the other, each from the trail of the object. -/
theorem reduceFields_declares {properties : List Property} {fields : List Field}
    (declares : List.Forall₂ (graph.Declares depth) properties fields)
    (lower : ∀ property ∈ properties, property.type < id) {later : Graph}
    (keeps : graph.KeepsNodes later) {levels : Nat} {trail : Trail} (enough : depth ≤ levels)
    (room : trail.depth + depth ≤ maximalNesting) (before : ∀ met ∈ trail.chain, id ≤ met) :
    ∃ results, reduceFields (reduceWithin later levels) properties trail = (results, trail) ∧
      Field.outlines results = fields := by
  induction declares with
  | nil => exact ⟨[], rfl, by rw [Field.outlines]⟩
  | @cons property field others rest first _ ih =>
    obtain ⟨outline, reduces, rfl⟩ := first.reads
    obtain ⟨result, reduced, same⟩ := reduces later keeps levels trail enough room
      fun met held => Nat.lt_of_lt_of_le (lower property List.mem_cons_self) (before met held)
    obtain ⟨results, reduced', same'⟩ :=
      ih fun other member => lower other (List.mem_cons_of_mem _ member)
    refine ⟨.declare property.name result false :: results, ?_, ?_⟩
    · rw [reduceFields_cons reduced reduced', first.present]
    · rw [Field.outlines_declare, same, same']

theorem Graph.offers_object {properties : List Property} {fields : List Field}
    (stands : graph.Stands id (.object ⟨properties, none⟩)) (present : properties ≠ [])
    (declares : List.Forall₂ (graph.Declares depth) properties fields) :
    graph.Offers (depth + 1) id (.present (.object fields)) := by
  have ⟨text, plain, node, before⟩ := stands
  have lower : ∀ property ∈ properties, property.type < id := fun property member =>
    before property.type (List.mem_append_left _ (List.mem_map_of_mem member))
  refine .present node ⟨rfl, rfl, rfl, ⟨rfl, rfl⟩, fun _ => Kind.noConfusion⟩
    (Graph.reduces_of_classify fun later keeps levels trail enough room before => ?_)
  obtain ⟨results, reduced, same⟩ :=
    reduceFields_declares declares lower keeps enough room before
  rw [classify_object (stands.keep keeps) present (isInherited_of_declares declares), reduced]
  exact ⟨_, rfl, by rw [Validator.outline_ofShape, Shape.outline, same]⟩

end Visits

end SwiftBindings.TypeGraph
