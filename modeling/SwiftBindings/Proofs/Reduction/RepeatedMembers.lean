/-
**Repeated alternatives.**

A further occurrence of an alternative should change nothing, but occurrences are counted. A union of
which a single alternative is left, besides null and absent values, is reduced to that alternative; with a
further occurrence of it there are several, and these are known only where they are strings or truth
values.

**The main statement.** `repeated_members_iff`: a union with further occurrences is reduced to the same
outline exactly if they are harmless (`Harmless`), or the single alternative is one that a union of
several also comes to (`StandsRepeated`). This holds of unions with further members behind their own, as
they are written in a file, and of two whole graphs, where also all other types are reduced to the same
outlines as long as the further occurrences are harmless.
-/

import SwiftBindings.Proofs.Reduction.WidenedUnions
import SwiftBindings.Proofs.TypeGraph.Identity

namespace SwiftBindings.Reduction

open Declared TypeGraph

/-! ### A single alternative -/

/-- The validator of the only alternative that is left of a union. -/
def onlyMember (graph : Graph) (union single : TypeId) : Validator :=
  (reduceWithin graph maximalNesting single (Trail.empty.enter union)).1

/-- A single alternative of a union comes to what several of its kind come to: it is a string or a truth
value and no identifier of rows, or it is unknown as a union of several alternatives is. -/
def StandsRepeated (graph : Graph) (union : TypeId) (members : List TypeId) (single : TypeId) : Prop :=
  (identifierTable? graph single = none ∧
    (isBooleanLike (graph.kind single) || isStringLike (graph.kind single)) = true) ∨
  (∃ text, (onlyMember graph union single).shape = .unknown text .nonLiteralUnion) ∧
    ((onlyMember graph union single).optional = true →
      (members.any fun member => isAbsence (graph.kind member)) = true) ∧
    ((onlyMember graph union single).nullable = true →
      (members.any fun member => isNull (graph.kind member)) = true)

section Textual

variable {kind : Kind}

theorem primitiveShape?_of_textual (textual : (isBooleanLike kind || isStringLike kind) = true) :
    primitiveShape? kind = some (unionOutline [kind]) := by
  cases kind with
  | primitive keyword =>
    cases keyword with
    | boolean => rfl
    | string => rfl
    | _ => cases textual
  | booleanLiteral value => rfl
  | stringLiteral value => rfl
  | _ => cases textual

theorem unionOutline_of_textual (textual : (isBooleanLike kind || isStringLike kind) = true) :
    unionOutline [kind] = .boolean ∨ unionOutline [kind] = .string ∨
      ∃ value, unionOutline [kind] = .enumeration [value] := by
  cases kind with
  | primitive keyword =>
    cases keyword with
    | boolean => exact .inl rfl
    | string => exact .inr (.inl rfl)
    | _ => cases textual
  | booleanLiteral value => exact .inl rfl
  | stringLiteral value => exact .inr (.inr ⟨value, rfl⟩)
  | _ => cases textual

theorem unionOutline_of_not_textual (other : (isBooleanLike kind || isStringLike kind) = false) :
    unionOutline [kind] = .unknown "" .nonLiteralUnion := by
  rw [Bool.or_eq_false_iff] at other
  have value : literalValue? kind = none := by
    cases kind with
    | stringLiteral value => cases other.2
    | _ => rfl
  simp [unionOutline, literalValues?, other.1, other.2, value]

end Textual

theorem outline_eq_unknown_iff {shape : Shape} {gap : Gap} :
    shape.outline = .unknown "" gap ↔ ∃ text, shape = .unknown text gap := by
  cases shape <;> simp [Shape.outline]

theorem outline_admitting_eq_iff {validator : Validator} {shape : Shape} {optional nullable : Bool} :
    (validator.admitting optional nullable).outline = (Validator.ofShape shape).admitting optional nullable ↔
      validator.shape.outline = shape ∧ (validator.optional = true → optional = true) ∧
        (validator.nullable = true → nullable = true) := by
  obtain ⟨own, absent, null⟩ := validator
  rw [Validator.outline_admitting, Validator.outline]
  simp only [Validator.admitting, Validator.ofShape, Validator.mk.injEq, Bool.false_or,
    Bool.or_eq_right_iff_imp]

/-- A string or a truth value is reduced to an identifier of rows or to its primitive shape. -/
theorem onlyMember_of_textual {graph : Graph} {union single : TypeId} {members : List TypeId}
    (kind : graph.kind union = .union members)
    (textual : (isBooleanLike (graph.kind single) || isStringLike (graph.kind single)) = true) :
    onlyMember graph union single = match identifierTable? graph single with
      | some table => .ofShape (.id table)
      | none => .ofShape (unionOutline [graph.kind single]) := by
  have new : single ∉ (Trail.empty.enter union).chain := by
    intro member
    rw [List.mem_singleton.mp member, kind] at textual
    cases textual
  have alone : graph.unionMembers? single = none := by
    rw [Graph.unionMembers?]
    split
    · rename_i others nested
      rw [nested] at textual
      cases textual
    · rfl
  have shallow : (Trail.empty.enter union).depth < maximalNesting := by
    show 1 < maximalNesting
    decide
  obtain ⟨levels, limit⟩ := Nat.exists_eq_succ_of_ne_zero (show maximalNesting ≠ 0 by decide)
  have atom : atomValidator? graph single = some (match identifierTable? graph single with
      | some table => .ofShape (.id table)
      | none => .ofShape (unionOutline [graph.kind single])) := by
    rw [atomValidator?, primitiveShape?_of_textual textual]
    cases identifierTable? graph single with
    | some table => rfl
    | none => rfl
  rw [onlyMember, limit, reduceWithin_succ levels shallow new, classify_single alone,
    classifySingle_atom atom]
  rfl

/-- **A single alternative beside itself**, exactly. -/
theorem standsRepeated_iff {graph : Graph} {union single : TypeId} {members : List TypeId}
    (kind : graph.kind union = .union members) :
    (Validator.ofShape (unionOutline [graph.kind single])).admitting
          (members.any fun member => isAbsence (graph.kind member))
          (members.any fun member => isNull (graph.kind member)) =
        ((onlyMember graph union single).admitting
          (members.any fun member => isAbsence (graph.kind member))
          (members.any fun member => isNull (graph.kind member))).outline ↔
      StandsRepeated graph union members single := by
  rw [eq_comm, outline_admitting_eq_iff, StandsRepeated]
  by_cases textual : (isBooleanLike (graph.kind single) || isStringLike (graph.kind single)) = true
  · have visit := onlyMember_of_textual kind textual
    cases found : identifierTable? graph single with
    | some table =>
      rw [found] at visit
      rw [visit]
      rcases unionOutline_of_textual textual with shape | shape | ⟨value, shape⟩ <;>
        simp [shape, Shape.outline, Validator.ofShape]
    | none =>
      rw [found] at visit
      rw [visit]
      rcases unionOutline_of_textual textual with shape | shape | ⟨value, shape⟩ <;>
        simp [shape, Shape.outline, Validator.ofShape, textual]
  · rw [unionOutline_of_not_textual (Bool.eq_false_iff.mpr textual), outline_eq_unknown_iff]
    simp [textual]

/-! ### Widened unions -/

section Widening

variable {place : TypeId → TypeId} {graph wider : Graph} (widening : Widening place graph wider)

include widening

/-- Where all further occurrences are harmless, no type is reduced to another outline. -/
theorem Widening.outline_reduce (harmless : ∀ id, Harmless place graph wider id) (id : TypeId) :
    (reduce wider (place id)).outline = (reduce graph id).outline := by
  have empty : Trail.empty.Matches place (fun _ => True) Trail.empty :=
    { depth := rfl
      chain := fun id _ => by simp [Trail.empty] }
  exact widening.outline_reduceWithin _ empty fun union => .inl (harmless union)

variable {union : TypeId} {members repeated : List TypeId} (found : graph.unionMembers? union = some members)
  (found' : wider.unionMembers? (place union) = some repeated)

include found found'

/-- The outline of a widened union of which two or more alternatives are left. -/
theorem Widening.outline_reduce_many (many : 2 ≤ (presentMembers wider repeated).length) :
    (reduce wider (place union)).outline =
      (Validator.ofShape (unionOutline ((presentMembers wider repeated).map wider.kind))).admitting
        (members.any fun member => isAbsence (graph.kind member))
        (members.any fun member => isNull (graph.kind member)) := by
  have repeats := widening.repeats found found'
  have absent := repeats.any widening.looks isAbsence fun _ _ alike => alike.absent
  have null := repeats.any widening.looks isNull fun _ _ alike => alike.null
  rw [Reduction.outline_reduce_many found' many, absent, null]

/-- A single alternative is left of the union, and several of the widened one. -/
theorem Widening.reduce_single_iff {single : TypeId} (left : presentMembers graph members = [single])
    (many : 2 ≤ (presentMembers wider repeated).length) :
    (reduce wider (place union)).outline = (reduce graph union).outline ↔
      StandsRepeated graph union members single := by
  have present := (widening.repeats found found').present widening.looks
  have some : (presentMembers wider repeated).map wider.kind ≠ [] :=
    ne_nil_of_several (by rwa [List.length_map])
  have alike : ∀ other ∈ (presentMembers wider repeated).map wider.kind,
      LookAlike (graph.kind single) other := by
    intro other inside
    obtain ⟨again, member, rfl⟩ := List.mem_map.mp inside
    obtain ⟨own, kept, looks⟩ := present.sees again member
    rw [left, List.mem_singleton] at kept
    exact kept ▸ looks
  rw [widening.outline_reduce_many found found' many, unionOutline_of_lookAlike some alike,
    ← standsRepeated_iff (Graph.kind_eq_union found), reduce, reduceOn,
    reduceWithin_succ maximalNesting (by decide) List.not_mem_nil, classify_union_one found left]
  rfl

/-- Two or more alternatives are left of the union. -/
theorem Widening.reduce_many_iff (many : 2 ≤ (presentMembers graph members).length) :
    (reduce wider (place union)).outline = (reduce graph union).outline ↔
      literalValues? ((presentMembers wider repeated).map wider.kind) =
        literalValues? ((presentMembers graph members).map graph.kind) := by
  have present := (widening.repeats found found').present widening.looks
  rw [widening.outline_reduce_many found found' (present.several many),
    Reduction.outline_reduce_many found many, ← present.unionOutline_eq_iff widening.looks (ne_nil_of_several many)]
  exact ⟨fun same => congrArg Validator.shape same, fun same => by rw [same]⟩

omit found' in
/-- **A widened union, exactly.** It is reduced to the same outline where its further occurrences are
harmless, or where the single alternative that is left of it stands beside itself. -/
theorem Widening.reduce_iff (others : ∀ id, id ≠ union → Harmless place graph wider id) :
    (reduce wider (place union)).outline = (reduce graph union).outline ↔
      Harmless place graph wider union ∨
        ∃ single, presentMembers graph members = [single] ∧
          StandsRepeated graph union members single := by
  have unchanged : Harmless place graph wider union →
      (reduce wider (place union)).outline = (reduce graph union).outline := by
    intro harmless
    refine widening.outline_reduce (fun id => ?_) union
    by_cases own : id = union
    · exact own ▸ harmless
    · exact others id own
  obtain ⟨repeated, found', _⟩ := widening.union union members found
  have harmless_iff := harmless_iff place found found'
  have present := (widening.repeats found found').present widening.looks
  rcases present.eq_map_or_several with same | ⟨single, left, many⟩ | many
  · have harmless := harmless_iff.mpr (.inl same)
    exact ⟨fun _ => .inl harmless, fun _ => unchanged harmless⟩
  · have single_iff := widening.reduce_single_iff found found' left many
    constructor
    · intro same
      exact .inr ⟨single, left, single_iff.mp same⟩
    · rintro (harmless | ⟨other, left', stands⟩)
      · exact unchanged harmless
      · rw [left, List.cons.injEq] at left'
        exact single_iff.mpr (left'.1 ▸ stands)
  · constructor
    · intro same
      have values := (widening.reduce_many_iff found found' many).mp same
      exact .inl (harmless_iff.mpr (.inr ⟨many, values⟩))
    · rintro (harmless | ⟨other, left, _⟩)
      · exact unchanged harmless
      · simp [left] at many

end Widening

/-! ### Unions as written -/

theorem map_eq_self {α : Type} {change : α → α} {items : List α}
    (fixed : ∀ item ∈ items, change item = item) : items.map change = items :=
  (List.map_congr_left fixed).trans (List.map_id items)

/-- A structure whose parts keep their places stays. -/
theorem rename_eq_self {place : TypeId → TypeId} {kind : Kind}
    (fixed : ∀ part ∈ kind.parts, place part = part) : kind.rename place = kind := by
  cases kind with
  | array element => exact congrArg Kind.array (fixed element List.mem_cons_self)
  | tuple elements => exact congrArg Kind.tuple (map_eq_self fixed)
  | union members => exact congrArg Kind.union (map_eq_self fixed)
  | intersection parts => exact congrArg Kind.intersection (map_eq_self fixed)
  | object shape =>
    obtain ⟨properties, index⟩ := forall_mem_parts_object.mp fixed
    obtain ⟨list, value⟩ := shape
    have types : list.map (Property.rename place) = list :=
      map_eq_self fun property inside => by rw [Property.rename, properties property inside]
    have further : value.map place = value := by
      cases value with
      | none => rfl
      | some id => exact congrArg some (index id rfl)
    rw [Kind.rename, ObjectShape.rename, types, further]
  | _ => rfl

/-- The place of a node when nodes are added behind the first ones. -/
def shift (front count id : Nat) : Nat :=
  if id < front then id else id + count

theorem shift_injective (front count : Nat) : Function.Injective (shift front count) := by
  intro id other same
  unfold shift at same
  split at same <;> split at same <;> omega

section Grown

variable {earlier later : Graph} (closed : earlier.Closed) (grows : earlier.GrowsTo later)
  {count : Nat} (size : later.nodes.size = earlier.nodes.size + count) {members added : List TypeId}
  (holds : earlier.Holds members)

theorem shift_front {id : TypeId} (inside : id < earlier.nodes.size) :
    shift earlier.nodes.size count id = id :=
  if_pos inside

theorem unionMembers?_unionType (members : List TypeId) (graph : Graph) :
    (unionType members graph).2.unionMembers? graph.nodes.size = some members := by
  show (allocate _ _ graph).2.unionMembers? _ = _
  rw [Graph.unionMembers?, kind_allocate, if_pos rfl]

include grows

/-- The nodes in front of both unions are the same. -/
theorem node_of_grows (members added : List TypeId) {id : TypeId} (inside : id < earlier.nodes.size) :
    (unionType (members ++ added) later).2.kind id = (unionType members earlier).2.kind id ∧
      (unionType (members ++ added) later).2.text id = (unionType members earlier).2.text id := by
  obtain ⟨node, held⟩ := exists_node inside
  have before : (unionType members earlier).2.nodes[id]? = some node := getElem?_push_of_some _ held
  have after : (unionType (members ++ added) later).2.nodes[id]? = some node :=
    getElem?_push_of_some _ (grows.nodes id node held)
  rw [Graph.kind_of_getElem? before, Graph.kind_of_getElem? after, Graph.text_of_getElem? before,
    Graph.text_of_getElem? after]
  exact ⟨rfl, rfl⟩

variable (again : ∀ other ∈ added, ∃ member ∈ members,
  (unionType (members ++ added) later).2.SameType member other)

include holds again

include closed size in
/-- A union to which members are added in a later graph is a widened one, if each of them has the type of
an alternative. -/
theorem widening_of_grows :
    Widening (shift earlier.nodes.size count) (unionType members earlier).2
        (unionType (members ++ added) later).2 ∧
      ∀ id, id ≠ earlier.nodes.size → Harmless (shift earlier.nodes.size count)
        (unionType members earlier).2 (unionType (members ++ added) later).2 id := by
  have front : shift earlier.nodes.size count earlier.nodes.size = later.nodes.size :=
    (if_neg (Nat.lt_irrefl _)).trans size.symm
  have newest : (unionType members earlier).2.nodes.size = earlier.nodes.size + 1 := Array.size_push _
  have newest' : (unionType (members ++ added) later).2.nodes.size = later.nodes.size + 1 :=
    Array.size_push _
  refine widening_of_nodes (shift_front closed.method) (shift_injective _ _) (fun id outside => ?_)
    (fun id inside other => ?_) (unionMembers?_unionType members earlier)
    (front ▸ unionMembers?_unionType (members ++ added) later) ?_ fun last listed => ?_
  · rw [newest] at outside
    rw [newest', shift, if_neg (by omega)]
    omega
  · rw [newest] at inside
    have old : id < earlier.nodes.size := Nat.lt_of_le_of_ne (Nat.lt_succ_iff.mp inside) other
    obtain ⟨kind, text⟩ := node_of_grows grows members added old
    have parts : ∀ part ∈ ((unionType members earlier).2.kind id).parts,
        shift earlier.nodes.size count part = part := by
      show ∀ part ∈ ((allocate _ _ earlier).2.kind id).parts, _
      rw [kind_allocate, if_neg other]
      exact fun part member => shift_front (closed.part_lt id member)
    rw [shift_front old, rename_eq_self parts]
    exact ⟨kind, congrArg identifierArgument? text⟩
  · rw [map_eq_self fun member inside => shift_front (holds member inside)]
    exact List.sublist_append_left _ _
  · rcases List.mem_append.mp listed with held | new
    · exact ⟨last, held, by rw [shift_front (holds last held)]⟩
    · obtain ⟨member, held, same⟩ := again last new
      exact ⟨member, held, by rwa [shift_front (holds member held)]⟩

/-- The members that are added bring no further string, and come behind the others. -/
theorem keepsPresent_of_grows :
    KeepsPresent (shift earlier.nodes.size count) (unionType members earlier).2
        (unionType (members ++ added) later).2 members (members ++ added) ↔
      presentMembers (unionType (members ++ added) later).2 (members ++ added) =
          presentMembers (unionType members earlier).2 members ∨
        2 ≤ (presentMembers (unionType members earlier).2 members).length := by
  have kind : ∀ member ∈ members, (unionType (members ++ added) later).2.kind member =
      (unionType members earlier).2.kind member :=
    fun member inside => (node_of_grows grows members added (holds member inside)).1
  have own : presentMembers (unionType (members ++ added) later).2 members =
      presentMembers (unionType members earlier).2 members :=
    List.filter_congr fun member inside => by rw [kind member inside]
  have left : ∀ member ∈ presentMembers (unionType members earlier).2 members, member ∈ members :=
    fun member inside => (List.mem_filter.mp inside).1
  have stays : (presentMembers (unionType members earlier).2 members).map
      (shift earlier.nodes.size count) = presentMembers (unionType members earlier).2 members :=
    map_eq_self fun member inside => shift_front (holds member (left member inside))
  have values : literalValues? ((presentMembers (unionType (members ++ added) later).2
        (members ++ added)).map (unionType (members ++ added) later).2.kind) =
      literalValues? ((presentMembers (unionType members earlier).2 members).map
        (unionType members earlier).2.kind) := by
    have kinds : (presentMembers (unionType members earlier).2 members).map
        (unionType (members ++ added) later).2.kind =
          (presentMembers (unionType members earlier).2 members).map (unionType members earlier).2.kind :=
      List.map_congr_left fun member inside => kind member (left member inside)
    rw [presentMembers, List.filter_append, List.map_append, ← kinds, ← own]
    refine literalValues?_append fun other listed => ?_
    obtain ⟨last, inside, rfl⟩ := List.mem_map.mp listed
    obtain ⟨listed, present⟩ := List.mem_filter.mp inside
    obtain ⟨member, held, same⟩ := again last listed
    have looks := lookAlike_of_sameType same
    rw [looks.absent, looks.null] at present
    exact ⟨_, List.mem_map_of_mem (List.mem_filter.mpr ⟨held, present⟩), looks⟩
  rw [KeepsPresent, stays, and_iff_left values]

end Grown

section Written

variable {symbols : Symbols} {bound : List String} (moment : Moment symbols bound)

/-- The alternatives of the members of a union that is resolved at a moment, and the graph after that. -/
def alternativesAt (types : List TypeExpr) : List TypeId × Graph :=
  resolveAlternatives symbols (.ofLevels symbols moment.levels) moment.scope types moment.graph

theorem alternativesAt_advances (types : List TypeExpr) :
    moment.graph.GrowsTo (alternativesAt moment types).2 ∧
      Reached symbols (alternativesAt moment types).2 := by
  obtain ⟨grows, reached, _⟩ := proceeds_resolveAlternatives
    (Deeper.proceeds_ofLevels symbols moment.levels) (Deeper.grounds_ofLevels symbols moment.levels)
    moment.scope types moment.graph moment.reached moment.places moment.enough
  exact ⟨grows, reached⟩

theorem alternativesAt_holds (types : List TypeExpr) :
    (alternativesAt moment types).2.Holds (alternativesAt moment types).1 :=
  (grounds_resolveAlternatives (Deeper.grounds_ofLevels symbols moment.levels) moment.scope types
    moment.graph moment.reached.grounded moment.places).2.2

/-- The moment behind the members of a union. -/
def behindMembers (types : List TypeExpr) : Moment symbols bound where
  graph := (alternativesAt moment types).2
  scope := moment.scope
  levels := moment.levels
  reached := (alternativesAt_advances moment types).2
  places := moment.places.keep (alternativesAt_advances moment types).1.size_le
  enough := by
    rw [(alternativesAt_advances moment types).1.room_eq]
    exact moment.enough
  names := moment.names

theorem resolveAlternatives_cons (deeper : Deeper) (scope : Scope) (type : TypeExpr)
    (rest : List TypeExpr) (graph : Graph) :
    resolveAlternatives symbols deeper scope (type :: rest) graph =
      let own := resolve symbols deeper scope type graph
      let others := resolveAlternatives symbols deeper scope rest own.2
      (own.2.alternatives own.1 ++ others.1, others.2) := by
  rw [resolveAlternatives]
  rfl

theorem alternativesAt_append (types more : List TypeExpr) :
    alternativesAt moment (types ++ more) =
      ((alternativesAt moment types).1 ++ (alternativesAt (behindMembers moment types) more).1,
        (alternativesAt (behindMembers moment types) more).2) := by
  unfold behindMembers alternativesAt
  dsimp only
  generalize moment.graph = graph
  induction types generalizing graph with
  | nil =>
    rw [List.nil_append]
    conv => rhs; simp only [resolveAlternatives]
    rfl
  | cons type rest ih =>
    rw [List.cons_append, resolveAlternatives_cons, resolveAlternatives_cons]
    dsimp only
    rw [ih, List.append_assoc]

theorem resolve_union (types : List TypeExpr) :
    moment.resolve (.union types) =
      unionType (alternativesAt moment types).1 (alternativesAt moment types).2 := by
  rw [Moment.resolve, TypeGraph.resolve]
  rfl

/-- **A union with further members behind its own**, wherever it is written and whatever the members are,
aliases of other unions too, where all that they bring are types of its alternatives. -/
theorem reduce_union_iff (types more : List TypeExpr)
    (again : ∀ other ∈ (alternativesAt (behindMembers moment types) more).1,
      ∃ member ∈ (alternativesAt moment types).1,
        (moment.resolve (.union (types ++ more))).2.SameType member other) :
    let narrow := moment.resolve (.union types)
    let wide := moment.resolve (.union (types ++ more))
    let left := presentMembers narrow.2 (alternativesAt moment types).1
    (reduce wide.2 wide.1).outline = (reduce narrow.2 narrow.1).outline ↔
      presentMembers wide.2 (alternativesAt moment (types ++ more)).1 = left ∨ 2 ≤ left.length ∨
        ∃ single, left = [single] ∧
          StandsRepeated narrow.2 narrow.1 (alternativesAt moment types).1 single := by
  have grows : (alternativesAt moment types).2.GrowsTo
      (alternativesAt (behindMembers moment types) more).2 :=
    (alternativesAt_advances (behindMembers moment types) more).1
  have closed := (alternativesAt_advances moment types).2.grounded.toClosed
  have holds := alternativesAt_holds moment types
  obtain ⟨count, size⟩ := Nat.exists_eq_add_of_le grows.size_le
  rw [resolve_union, alternativesAt_append] at again
  rw [resolve_union, resolve_union, alternativesAt_append]
  intro narrow wide left
  obtain ⟨widening, others⟩ := widening_of_grows closed grows size holds again
  have front : shift (alternativesAt moment types).2.nodes.size count
      (alternativesAt moment types).2.nodes.size =
        (alternativesAt (behindMembers moment types) more).2.nodes.size :=
    (if_neg (Nat.lt_irrefl _)).trans size.symm
  have found := unionMembers?_unionType (alternativesAt moment types).1 (alternativesAt moment types).2
  have found' := unionMembers?_unionType ((alternativesAt moment types).1 ++
    (alternativesAt (behindMembers moment types) more).1)
    (alternativesAt (behindMembers moment types) more).2
  rw [← front] at found'
  have reduces := widening.reduce_iff found others
  rwa [harmless_iff _ found found', keepsPresent_of_grows grows holds again, front, or_assoc] at reduces

end Written

/-- **Repeating an alternative changes nothing, exactly** where nothing but null and absent values is
repeated, or two or more other alternatives are there without it, or the single alternative stands beside
itself: for every union that is written with further members behind its own, at any moment of a run; and
for every union of a graph that is widened, where strings come first in the order in which they did. As
long as all further occurrences are harmless, no type is reduced to another outline. -/
theorem repeated_members_iff (symbols : Symbols) :
    (∀ (bound : List String) (moment : Moment symbols bound) (types more : List TypeExpr),
      (∀ other ∈ (alternativesAt (behindMembers moment types) more).1,
        ∃ member ∈ (alternativesAt moment types).1,
          (moment.resolve (.union (types ++ more))).2.SameType member other) →
      let narrow := moment.resolve (.union types)
      let wide := moment.resolve (.union (types ++ more))
      let left := presentMembers narrow.2 (alternativesAt moment types).1
      ((reduce wide.2 wide.1).outline = (reduce narrow.2 narrow.1).outline ↔
        presentMembers wide.2 (alternativesAt moment (types ++ more)).1 = left ∨ 2 ≤ left.length ∨
          ∃ single, left = [single] ∧
            StandsRepeated narrow.2 narrow.1 (alternativesAt moment types).1 single)) ∧
    ∀ (place : TypeId → TypeId) (graph wider : Graph), Widening place graph wider →
      ((∀ id, Harmless place graph wider id) →
        ∀ id, (reduce wider (place id)).outline = (reduce graph id).outline) ∧
      ∀ union members, graph.unionMembers? union = some members →
        (∀ id, id ≠ union → Harmless place graph wider id) →
          ((reduce wider (place union)).outline = (reduce graph union).outline ↔
            Harmless place graph wider union ∨
              ∃ single, presentMembers graph members = [single] ∧
                StandsRepeated graph union members single) := by
  constructor
  · intro bound moment types more again
    exact reduce_union_iff moment types more again
  · intro place graph wider widening
    exact ⟨widening.outline_reduce, fun union members found others => widening.reduce_iff found others⟩

/-- A file with a value of a union type. -/
def valueOf (items : List Item) (members : List TypeExpr) : Symbols :=
  .ofItems (items ++ [.value "a" (.union members) true])

/-- A string that may be null. -/
def label : Graph :=
  graphAfter (valueOf [] [.keyword .string, .keyword .null]) ["a"] .initial

/-- The same with the string once more. -/
def repeatedLabel : Graph :=
  graphAfter (valueOf [] [.keyword .string, .keyword .null, .keyword .string]) ["a"] .initial

/-- A repeated string is a string: where it is written, and in the graph of the value. -/
theorem repeatedLabel_same :
    let start := Moment.start (.ofItems [])
    let narrow := start.resolve (.union [.keyword .string, .keyword .null])
    let wide := start.resolve (.union [.keyword .string, .keyword .null, .keyword .string])
    (reduce wide.2 wide.1).outline = (reduce narrow.2 narrow.1).outline ∧
      Widening id label repeatedLabel ∧
      (reduce repeatedLabel (id 3)).outline = (reduce label 3).outline := by
  intro start narrow wide
  constructor
  · have own : (alternativesAt start [.keyword .string, .keyword .null]).1 = [1, 2] := by decide +kernel
    have further : (alternativesAt (behindMembers start [.keyword .string, .keyword .null])
        [.keyword .string]).1 = [1] := by decide +kernel
    refine ((repeated_members_iff (.ofItems [])).1 [] start [.keyword .string, .keyword .null]
      [.keyword .string] fun other inside => ?_).mpr
        (.inr (.inr ⟨1, by decide +kernel, .inl (by decide +kernel)⟩))
    rw [further, List.mem_singleton] at inside
    rw [own, inside]
    exact ⟨1, List.mem_cons_self, .refl _ _⟩
  · have found : label.unionMembers? 3 = some [1, 2] := by decide +kernel
    have found' : repeatedLabel.unionMembers? 3 = some [1, 2, 1] := by decide +kernel
    have size : label.nodes.size = repeatedLabel.nodes.size := by decide +kernel
    have again : ∀ again ∈ [1, 2, 1], ∃ member ∈ [1, 2], repeatedLabel.SameType (id member) again := by
      intro again inside
      have listed : again ∈ [1, 2] := by
        revert again
        decide
      exact ⟨again, listed, .refl _ _⟩
    obtain ⟨widening, others⟩ : Widening id label repeatedLabel ∧
        ∀ other, other ≠ 3 → Harmless id label repeatedLabel other :=
      widening_of_nodes rfl Function.injective_id (fun _ outside => size ▸ outside) (by decide +kernel)
        found found' (by decide) again
    have reduces := ((repeated_members_iff (.ofItems [])).2 id label repeatedLabel widening).2
    exact ⟨widening, (reduces 3 [1, 2] found others).mpr
      (.inr ⟨1, by decide +kernel, .inl (by decide +kernel)⟩)⟩

/-- Two aliases of unions with one alternative in common. -/
def overlappingAliases : List Item :=
  [.typeAlias "A" [] (.union [.keyword .number, .keyword .null]) false,
    .typeAlias "B" [] (.union [.keyword .number, .keyword .undefined]) false]

/-- The alternatives of both. -/
def optionalNumber : Graph :=
  graphAfter (valueOf overlappingAliases [.keyword .number, .keyword .null, .keyword .undefined]) ["a"]
    .initial

/-- The union of both. -/
def joinedAliases : Graph :=
  graphAfter (valueOf overlappingAliases [.reference "A" [], .reference "B" []]) ["a"] .initial

/-- The places of the alternatives when the aliases are resolved before them. -/
def behindAliases : Nat → Nat
  | 0 => 0
  | 1 => 2
  | 2 => 3
  | 3 => 6
  | id + 4 => id + 8

theorem behindAliases_injective : Function.Injective behindAliases := by
  intro id other same
  unfold behindAliases at same
  split at same <;> split at same <;> omega

/-- An optional number that may be null is unknown when it is written as the union of two aliases that
have the number in common. -/
theorem joinedAliases_unknown :
    Widening behindAliases optionalNumber joinedAliases ∧
      optionalNumber.values.lookup "a" = some 4 ∧
      joinedAliases.values.lookup "a" = some (behindAliases 4) ∧
      ((reduce optionalNumber 4).shape.kindName = "number" ∧
        (reduce optionalNumber 4).optional = true ∧ (reduce optionalNumber 4).nullable = true) ∧
      (reduce joinedAliases (behindAliases 4)).outline ≠ (reduce optionalNumber 4).outline := by
  have found : optionalNumber.unionMembers? 4 = some [1, 2, 3] := by decide +kernel
  have found' : joinedAliases.unionMembers? 8 = some [2, 3, 2, 6] := by decide +kernel
  have size : optionalNumber.nodes.size = 5 := by decide +kernel
  have size' : joinedAliases.nodes.size = 9 := by decide +kernel
  have outside : ∀ id, optionalNumber.nodes.size ≤ id → joinedAliases.nodes.size ≤ behindAliases id := by
    intro id behind
    obtain ⟨rest, rfl⟩ := Nat.exists_eq_add_of_le' (size ▸ behind : 5 ≤ id)
    rw [size']
    show 9 ≤ rest + 1 + 8
    omega
  have again : ∀ again ∈ [2, 3, 2, 6], ∃ member ∈ [1, 2, 3],
      joinedAliases.SameType (behindAliases member) again := by
    intro again inside
    have listed : ∃ member ∈ [1, 2, 3], behindAliases member = again := by
      revert again
      decide
    obtain ⟨member, held, rfl⟩ := listed
    exact ⟨member, held, .refl _ _⟩
  have widening : Widening behindAliases optionalNumber joinedAliases ∧
      ∀ id, id ≠ 4 → Harmless behindAliases optionalNumber joinedAliases id :=
    widening_of_nodes rfl behindAliases_injective outside (by decide +kernel) found found' (by decide)
      again
  refine ⟨widening.1, by decide +kernel, by decide +kernel, by decide +kernel, fun same => ?_⟩
  have number : (reduce optionalNumber 4).outline.shape.kindName = "number" := by decide +kernel
  have unknown : (reduce joinedAliases (behindAliases 4)).outline.shape.kindName = "unknown" := by
    decide +kernel
  rw [same, number] at unknown
  exact absurd unknown (by decide)

end SwiftBindings.Reduction
