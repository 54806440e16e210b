/-
**Texts of types, read back.**

The text of a plain type is a type again, and mostly one of the same structure. It is another one where
parentheses are missing: the element of a list gets none if its text starts with a brace, though the brace
may belong to the first member of a union alone, and the parts of an intersection never get any. It is no
type at all where a string literal has a line break, which is printed as it is. `TypeExpr.readsBack` leaves
these types out.

**The main statement.** `text_readsBack_iff`: what is read from the text of a plain type has the structure
of the type exactly if no such type is in it. Of properties of one name only the last one counts, as it is
the only one that is printed.

Both directions come of one induction over the type. A text has at least as many clauses as the type has
alternatives, and at least as many operands as it has parts. So where as many are read as there are, they
are those of the members one by one (`eq_of_flatMap_eq`).
-/

import SwiftBindings.Proofs.TypeGraph.Identity
import SwiftBindings.Proofs.TypeGraph.RenderedTexts

namespace SwiftBindings.Declared

open Script TypeGraph

/-! ### Types that are read back -/

/-- The type is a union or an intersection. -/
def TypeExpr.isCombined : TypeExpr → Bool
  | .union _ => true
  | .intersection _ => true
  | _ => false

mutual

/-- The text of the type starts with a brace. -/
def TypeExpr.startsWithBrace : TypeExpr → Bool
  | .array element => element.startsWithBrace
  | .union members => firstStartsWithBrace members
  | .intersection members => firstStartsWithBrace members
  | .object _ => true
  | _ => false

/-- The text of the first type starts with a brace. -/
def firstStartsWithBrace : List TypeExpr → Bool
  | [] => false
  | first :: _ => first.startsWithBrace

end

mutual

/-- The text of the type is read as it: its string literals have no line breaks, no list has a union or an
intersection for an element whose text starts with a brace, and no part of an intersection is a union or
an intersection. -/
def TypeExpr.readsBack : TypeExpr → Bool
  | .keyword _ => true
  | .stringLiteral value => isReadable value.toList
  | .array element => element.readsBack && !(element.isCombined && element.startsWithBrace)
  | .tuple elements => allReadBack elements
  | .union members => allReadBack members
  | .intersection members => allReadBack members && members.all fun member => !member.isCombined
  | .object members => (Keyed.ofList (membersReadBack members)).all Prod.snd
  | _ => false

/-- The texts of all of the types are read as they are. -/
def allReadBack : List TypeExpr → Bool
  | [] => true
  | type :: rest => type.readsBack && allReadBack rest

/-- The properties, each with whether the text of its type is read as it. -/
def membersReadBack : List Member → List (String × Bool)
  | [] => []
  | .property name _ type :: rest => (name, type.readsBack) :: membersReadBack rest
  | .index _ _ :: rest => membersReadBack rest

end

theorem allReadBack_iff {types : List TypeExpr} :
    allReadBack types = true ↔ ∀ type ∈ types, type.readsBack = true := by
  induction types with
  | nil => simp [allReadBack]
  | cons type rest ih => simp [allReadBack, ih]

theorem readsBack_object (fields : List (String × Bool × TypeExpr)) :
    (TypeExpr.object (propertyMembers fields)).readsBack = true ↔
      ∀ field ∈ Keyed.ofList fields, field.2.2.readsBack = true := by
  have members : membersReadBack (propertyMembers fields) =
      fields.map (Prod.map id fun value : Bool × TypeExpr => value.2.readsBack) := by
    induction fields with
    | nil => rfl
    | cons field rest ih =>
      rw [propertyMembers, List.map_cons, membersReadBack, List.map_cons]
      exact congrArg _ ih
  rw [TypeExpr.readsBack, members, ← Keyed.map_ofList, List.all_map]
  exact List.all_eq_true

/-! ### Texts that start with a brace -/

theorem chars_ne_nil_of_heads {marks : List String} {chars : List Char} (heads : Heads marks chars) :
    chars ≠ [] := by
  rintro rfl
  obtain ⟨kind, tail, is, opens, _⟩ := heads.starts [] follows_finish
  have finish : kind = .finish := (is 0).1.symm.trans (ahead_finish 0).1
  rw [finish] at opens
  cases opens

theorem head?_intercalate {separator first : List Char} (some : first ≠ []) (others : List (List Char)) :
    (separator.intercalate (first :: others)).head? = first.head? := by
  obtain ⟨c, rest, rfl⟩ := List.exists_cons_of_ne_nil some
  cases others <;> simp [List.intercalate]

theorem TypeExpr.IsPlain.chars_ne_nil {type : TypeExpr} (plain : type.IsPlain) :
    type.written.chars ≠ [] :=
  chars_ne_nil_of_heads plain.areRead.isPhrase.heads

/-- The text starts with a brace exactly if the first type that it consists of is an object type. -/
theorem TypeExpr.IsPlain.head?_iff {type : TypeExpr} (plain : type.IsPlain) :
    type.written.chars.head? = some '\x7b' ↔ type.startsWithBrace = true := by
  induction plain with
  | keyword keyword =>
    rw [TypeExpr.written, TypeExpr.clauses, Written.clauses_written]
    cases keyword <;> decide
  | stringLiteral value =>
    rw [TypeExpr.written, TypeExpr.clauses, Written.clauses_written, Written.literal, literalText_toList]
    simp [TypeExpr.startsWithBrace]
  | @array element plain ih =>
    rw [chars_array plain, TypeExpr.startsWithBrace, ← ih]
    split
    · rename_i grouped
      simpa using grouped.2
    · rw [List.head?_append_of_ne_nil _ plain.chars_ne_nil]
  | tuple _ _ =>
    rw [TypeExpr.written, TypeExpr.clauses, Written.clauses_written]
    simp [Written.tuple, TypeExpr.startsWithBrace]
  | @union members several plain ih =>
    obtain ⟨first, others, rfl⟩ := List.exists_cons_of_length_pos (Nat.lt_of_lt_of_le Nat.two_pos several)
    rw [chars_union plain, List.map_cons, head?_intercalate (plain first List.mem_cons_self).chars_ne_nil]
    exact ih first List.mem_cons_self
  | @intersection members several plain ih =>
    obtain ⟨first, others, rfl⟩ := List.exists_cons_of_length_pos (Nat.lt_of_lt_of_le Nat.two_pos several)
    rw [chars_intersection plain several, List.map_cons,
      head?_intercalate (plain first List.mem_cons_self).chars_ne_nil]
    exact ih first List.mem_cons_self
  | object _ _ _ =>
    rw [TypeExpr.written, clauses_object, Written.clauses_written, Written.object]
    refine iff_of_true ?_ rfl
    split <;> rfl

end SwiftBindings.Declared

namespace SwiftBindings.TypeGraph

open Declared Script

/-! ### Lists put together -/

/-- Shorter lists are shorter put together. -/
theorem length_flatMap_le {α β γ : Type} {items : List α} {first : α → List β} {second : α → List γ}
    (shorter : ∀ item ∈ items, (first item).length ≤ (second item).length) :
    (items.flatMap first).length ≤ (items.flatMap second).length := by
  induction items with
  | nil => exact Nat.le_refl 0
  | cons item rest ih =>
    rw [List.flatMap_cons, List.flatMap_cons, List.length_append, List.length_append]
    exact Nat.add_le_add (shorter item List.mem_cons_self)
      (ih fun other member => shorter other (List.mem_cons_of_mem _ member))

/-- Lists that are the same put together are the same one by one, where none of the first is shorter. -/
theorem eq_of_flatMap_eq {α β : Type} {items : List α} {first second : α → List β}
    (same : items.flatMap first = items.flatMap second)
    (shorter : ∀ item ∈ items, (second item).length ≤ (first item).length) :
    ∀ item ∈ items, first item = second item := by
  induction items with
  | nil => exact fun _ member => absurd member List.not_mem_nil
  | cons item rest ih =>
    have others := length_flatMap_le fun other member => shorter other (List.mem_cons_of_mem item member)
    have here := shorter item List.mem_cons_self
    rw [List.flatMap_cons, List.flatMap_cons] at same
    have length := congrArg List.length same
    rw [List.length_append, List.length_append] at length
    obtain ⟨head, tail⟩ := List.append_inj same (by omega)
    exact List.forall_mem_cons.mpr
      ⟨head, ih tail fun other member => shorter other (List.mem_cons_of_mem _ member)⟩

/-! ### Structures that are read -/

/-- The structure is a union or an intersection. -/
def Tree.isCombined : Tree → Bool
  | .union _ => true
  | .intersection _ => true
  | _ => false

theorem isCombined_shape (type : TypeExpr) : type.shape.isCombined = type.isCombined := by
  cases type <;> rfl

theorem lowerTypes_eq (source : List Char) (trees : List TypeTree) :
    lowerTypes source trees = trees.map (TypeTree.lower source) := by
  induction trees with
  | nil => rfl
  | cons tree rest ih => rw [lowerTypes, ih, List.map_cons]

theorem shape_union (types : List TypeExpr) :
    (TypeExpr.union types).shape = .union (types.flatMap fun type => type.shape.alternatives) := by
  rw [TypeExpr.shape, shapes_eq, List.flatMap_map]

theorem shape_intersection (types : List TypeExpr) :
    (TypeExpr.intersection types).shape = .intersection (types.map TypeExpr.shape) := by
  rw [TypeExpr.shape, shapes_eq]

theorem alternatives_of_single {tree : Tree} (other : ∀ members, tree ≠ .union members) :
    tree.alternatives = [tree] := by
  cases tree with
  | union members => exact absurd rfl (other members)
  | _ => rfl

theorem ne_union_of_isCombined {tree : Tree} (whole : tree.isCombined = false) (members : List Tree) :
    tree ≠ .union members := by
  rintro rfl
  cases whole

/-- The structure of what is read of a syntax tree. -/
def treeShape (source : List Char) (tree : TypeTree) : Tree :=
  (tree.lower source).shape

/-- The structure of what is read of a text. -/
def readShape (source : List Char) (written : Written) : Tree :=
  treeShape source written.tree

theorem isCombined_readShape (source : List Char) (written : Written) :
    (readShape source written).isCombined = written.tree.isCombined := by
  rw [readShape, treeShape, isCombined_shape]
  cases written.tree <;> rfl

section Single

variable (source : List Char)

theorem treeShape_intersection (trees : List TypeTree) :
    treeShape source (single .intersection trees) = single .intersection (trees.map (treeShape source)) := by
  match trees with
  | [] => rfl
  | [tree] => rfl
  | first :: second :: others =>
    show treeShape source (.intersection (first :: second :: others)) = .intersection _
    rw [treeShape, TypeTree.lower, shape_intersection, lowerTypes_eq, List.map_map]
    rfl

theorem treeShape_union {trees : List TypeTree}
    (others : ∀ tree ∈ trees, ∀ members, treeShape source tree ≠ .union members) :
    treeShape source (single .union trees) = single .union (trees.map (treeShape source)) := by
  have flat : ∀ trees : List TypeTree, (∀ tree ∈ trees, ∀ members, treeShape source tree ≠ .union members) →
      trees.flatMap (fun tree => (treeShape source tree).alternatives) = trees.map (treeShape source) := by
    intro trees others
    induction trees with
    | nil => rfl
    | cons tree rest ih =>
      rw [List.flatMap_cons, List.map_cons, alternatives_of_single (others tree List.mem_cons_self),
        ih fun other member => others other (List.mem_cons_of_mem _ member)]
      rfl
  match trees, others with
  | [], _ => rfl
  | [tree], _ => rfl
  | first :: second :: rest, others =>
    show treeShape source (.union (first :: second :: rest)) = .union _
    rw [treeShape, TypeTree.lower, shape_union, lowerTypes_eq, List.flatMap_map]
    exact congrArg Tree.union (flat _ others)

end Single

/-- The structure of a clause that is read. -/
def clauseShape (source : List Char) (operands : List Written) : Tree :=
  single .intersection (operands.map (readShape source))

section Read

variable (source : List Char) {clauses : Clauses}

theorem clauseShape_ne_union (read : clauses.AreRead) {operands : List Written}
    (member : operands ∈ clauses) (members : List Tree) : clauseShape source operands ≠ .union members := by
  obtain ⟨some, each⟩ := read.operands operands member
  obtain ⟨operand, others, rfl⟩ := List.exists_cons_of_ne_nil some
  cases others with
  | nil =>
    refine ne_union_of_isCombined ?_ members
    rw [clauseShape, List.map_singleton, single, isCombined_readShape]
    exact (each operand List.mem_cons_self).whole
  | cons second others => exact Tree.noConfusion

/-- **The union of the clauses is read.** -/
theorem readShape_written (read : clauses.AreRead) :
    readShape source clauses.written = single .union (clauses.map (clauseShape source)) := by
  have clause : ∀ operands : List Written,
      treeShape source (single .intersection (operands.map Written.tree)) = clauseShape source operands := by
    intro operands
    rw [treeShape_intersection, List.map_map]
    rfl
  rw [readShape, Clauses.tree_written]
  refine (treeShape_union source fun tree member => ?_).trans ?_
  · obtain ⟨operands, inside, rfl⟩ := List.mem_map.mp member
    rw [clause operands]
    exact clauseShape_ne_union source read inside
  · rw [List.map_map]
    exact congrArg _ (List.map_congr_left fun operands _ => clause operands)

/-- The alternatives that are read are the clauses. -/
theorem alternatives_readShape (read : clauses.AreRead) :
    (readShape source clauses.written).alternatives = clauses.map (clauseShape source) := by
  rw [readShape_written source read]
  match clauses, read with
  | [], read => exact absurd rfl read.nonempty
  | [operands], read =>
    exact alternatives_of_single (clauseShape_ne_union source read List.mem_cons_self)
  | first :: second :: others, _ => rfl

/-- A union that is read has more than one alternative. -/
theorem length_ne_one_of_readShape (read : clauses.AreRead) {alternatives : List Tree}
    (union : readShape source clauses.written = .union alternatives) : alternatives.length ≠ 1 := by
  have same := alternatives_readShape source read
  rw [union] at same
  obtain rfl : alternatives = clauses.map (clauseShape source) := same
  intro one
  obtain ⟨tree, alone⟩ := List.length_eq_one_iff.mp one
  have member : tree ∈ clauses.map (clauseShape source) := alone ▸ List.mem_singleton_self tree
  obtain ⟨operands, inside, rfl⟩ := List.mem_map.mp member
  rw [readShape_written source read, alone] at union
  exact clauseShape_ne_union source read inside _ union

/-- What is read is no union or intersection exactly if it is a single operand. -/
theorem isCombined_written_iff (read : clauses.AreRead) :
    (readShape source clauses.written).isCombined = false ↔ clauses = clauses.written.clauses := by
  constructor
  · intro whole
    rw [readShape_written source read] at whole
    match clauses, read with
    | [], read => exact absurd rfl read.nonempty
    | [[]], read => exact absurd rfl (read.operands [] List.mem_cons_self).1
    | [[operand]], _ => exact congrArg Written.clauses operand.clauses_written.symm
    | [first :: second :: others], _ => cases whole
    | first :: second :: others, _ => cases whole
  · intro same
    rw [same] at read
    rw [isCombined_readShape]
    exact ((read.operands _ List.mem_cons_self).2 _ List.mem_cons_self).whole

/-- An intersection that is read is a single clause. -/
theorem exists_clause_of_readShape (read : clauses.AreRead) {parts : List Tree}
    (whole : readShape source clauses.written = .intersection parts) :
    ∃ operands, clauses = [operands] ∧ operands.map (readShape source) = parts := by
  have alone := alternatives_readShape source read
  rw [whole] at alone
  obtain ⟨operands, rfl, clause⟩ := List.map_eq_singleton_iff.mp alone.symm
  refine ⟨operands, rfl, ?_⟩
  obtain ⟨some, each⟩ := read.operands operands List.mem_cons_self
  match operands, some, each with
  | [operand], _, each =>
    have other : readShape source operand = .intersection parts := clause
    have own := (each operand List.mem_cons_self).whole
    rw [← isCombined_readShape source, other] at own
    cases own
  | first :: second :: others, _, _ => exact Tree.intersection.inj clause

end Read

/-- Types are the same where their alternatives are, if no union has just one. -/
theorem Tree.eq_of_alternatives {first second : Tree} (same : first.alternatives = second.alternatives)
    (several : ∀ members, first = .union members → members.length ≠ 1)
    (several' : ∀ members, second = .union members → members.length ≠ 1) : first = second := by
  by_cases union : ∃ members, first = .union members
  · obtain ⟨members, rfl⟩ := union
    by_cases union' : ∃ members, second = .union members
    · obtain ⟨members', rfl⟩ := union'
      exact congrArg Tree.union same
    · rw [alternatives_of_single fun members held => union' ⟨members, held⟩] at same
      exact absurd (congrArg List.length same) (several members rfl)
  · rw [alternatives_of_single fun members held => union ⟨members, held⟩] at same
    by_cases union' : ∃ members, second = .union members
    · obtain ⟨members', rfl⟩ := union'
      exact absurd (congrArg List.length same).symm (several' members' rfl)
    · rw [alternatives_of_single fun members held => union' ⟨members, held⟩] at same
      exact List.singleton_inj.mp same

/-- A text has at least as many clauses as the type has alternatives. -/
theorem alternatives_le_clauses {type : TypeExpr} (plain : type.IsPlain) :
    type.shape.alternatives.length ≤ type.clauses.length := by
  have one : ∀ {type : TypeExpr}, type.IsPlain → (∀ members, type.shape ≠ .union members) →
      type.shape.alternatives.length ≤ type.clauses.length := by
    intro type plain other
    rw [alternatives_of_single other]
    exact List.length_pos_iff.mpr plain.areRead.nonempty
  induction plain with
  | @union members _ plain ih =>
    rw [shape_union, TypeExpr.clauses, typeClauses_eq, ← List.flatMap_def]
    exact length_flatMap_le ih
  | keyword keyword => exact one (.keyword keyword) fun _ => Tree.noConfusion
  | stringLiteral value => exact one (.stringLiteral value) fun _ => Tree.noConfusion
  | array plain => exact one (.array plain) fun _ => Tree.noConfusion
  | tuple plain => exact one (.tuple plain) fun _ => Tree.noConfusion
  | intersection several plain => exact one (.intersection several plain) fun _ => Tree.noConfusion
  | object names plain => exact one (.object names plain) fun _ => Tree.noConfusion

/-! ### One step of the induction -/

/-- The text of the type can be read, and what is read has the structure of the type. -/
def IsReadBack (source : List Char) (type : TypeExpr) : Prop :=
  type.written.ok = true ∧ readShape source type.written = type.shape

section Step

variable (source : List Char)

/-- A single operand is read as what it is. -/
theorem isReadBack_operand {type : TypeExpr} {operand : Written} (single : type.clauses = operand.clauses) :
    IsReadBack source type ↔ operand.ok = true ∧ readShape source operand = type.shape := by
  rw [IsReadBack, TypeExpr.written, single, Written.clauses_written]

/-- The element of a list keeps its operators to itself only in parentheses. -/
theorem isReadBack_array {element : TypeExpr} (plain : element.IsPlain)
    (decides : IsReadBack source element ↔ element.readsBack = true) :
    IsReadBack source (.array element) ↔ (TypeExpr.array element).readsBack = true := by
  rw [TypeExpr.readsBack, Bool.and_eq_true, Bool.not_eq_true', ← decides]
  by_cases grouped : ' ' ∈ element.written.chars ∧ element.written.chars.head? ≠ some '\x7b'
  · have clauses : (TypeExpr.array element).clauses = element.written.group.list.clauses := by
      rw [TypeExpr.clauses, Clauses.array]
      exact if_pos grouped
    have brace : element.startsWithBrace = false := by
      rw [← Bool.not_eq_true, ← plain.head?_iff]
      exact grouped.2
    have read : readShape source element.written.group.list = .array (readShape source element.written) :=
      rfl
    rw [isReadBack_operand source clauses, brace, Bool.and_false, TypeExpr.shape, read, Tree.array.injEq]
    exact (and_iff_left rfl).symm
  have clauses : (TypeExpr.array element).clauses = element.clauses.listed := by
    rw [TypeExpr.clauses, Clauses.array]
    exact if_neg grouped
  by_cases single : element.clauses = element.written.clauses
  · have own : (TypeExpr.array element).clauses = element.written.list.clauses := by
      rw [clauses, single]
      exact Clauses.listed_concat [] [] _
    have read : readShape source element.written.list = .array (readShape source element.written) := rfl
    rw [isReadBack_operand source own, TypeExpr.shape, read, Tree.array.injEq]
    refine ⟨fun back => ⟨back, ?_⟩, And.left⟩
    have whole := (isCombined_written_iff source plain.areRead).mpr single
    rw [← TypeExpr.written, back.2, isCombined_shape] at whole
    rw [whole, Bool.false_and]
  · -- The last operand alone gets the list brackets, and the operators stay around the list.
    have brace : element.startsWithBrace = true := by
      by_contra none
      rw [← plain.head?_iff] at none
      refine grouped ⟨?_, none⟩
      by_contra blank
      obtain ⟨operand, same⟩ := plain.areRead.exists_operand blank
      exact single (by rw [TypeExpr.written, same, Written.clauses_written])
    refine iff_of_false (fun back => ?_) fun kept => ?_
    · have read := plain.array.areRead
      have whole : (readShape source (TypeExpr.array element).written).isCombined = false := by
        rw [back.2]
        rfl
      have same := (isCombined_written_iff source read).mp whole
      rw [clauses] at same
      exact single (plain.areRead.single_of_listed same)
    · obtain ⟨back, keeps⟩ := kept
      rw [brace, Bool.and_true, ← isCombined_shape, ← back.2] at keeps
      exact single ((isCombined_written_iff source plain.areRead).mp keeps)

section Several

variable {types : List TypeExpr} (decides : ∀ type ∈ types, IsReadBack source type ↔ type.readsBack = true)

include decides

/-- All types are read back. -/
theorem allReadBack_iff_isReadBack :
    allReadBack types = true ↔ (∀ type ∈ types, type.written.ok = true) ∧
      ∀ type ∈ types, readShape source type.written = type.shape := by
  rw [allReadBack_iff]
  constructor
  · intro back
    exact ⟨fun type member => ((decides type member).mpr (back type member)).1,
      fun type member => ((decides type member).mpr (back type member)).2⟩
  · rintro ⟨ok, same⟩ type member
    exact (decides type member).mp ⟨ok type member, same type member⟩

theorem isReadBack_tuple :
    IsReadBack source (.tuple types) ↔ (TypeExpr.tuple types).readsBack = true := by
  have own : (TypeExpr.tuple types).clauses =
      (Written.tuple (types.map TypeExpr.written)).clauses := by
    rw [TypeExpr.clauses, typeClauses_eq, List.map_map]
    rfl
  have read : readShape source (Written.tuple (types.map TypeExpr.written)) =
      .tuple (types.map fun type => readShape source type.written) := by
    rw [readShape, treeShape, Written.tuple, TypeTree.lower, TypeExpr.shape, lowerTypes_eq, shapes_eq]
    simp only [List.map_map]
    rfl
  rw [isReadBack_operand source own, read, TypeExpr.shape, shapes_eq, Tree.tuple.injEq,
    List.map_inj_left, TypeExpr.readsBack, allReadBack_iff_isReadBack source decides]
  refine and_congr_left fun _ => ?_
  rw [Written.tuple, List.all_map]
  exact List.all_eq_true

variable (plain : ∀ type ∈ types, type.IsPlain) (several : 2 ≤ types.length)

include plain several

omit decides in
theorem readShape_union : readShape source (TypeExpr.union types).written =
    .union (types.flatMap fun type => (readShape source type.written).alternatives) := by
  have read := (TypeExpr.IsPlain.union several plain).areRead
  have enough : 2 ≤ (types.flatMap TypeExpr.clauses).length := by
    refine Nat.le_trans several ?_
    have each : ∀ type ∈ types, [type].length ≤ type.clauses.length := fun type member =>
      List.length_pos_iff.mpr (plain type member).areRead.nonempty
    have more := length_flatMap_le each
    rwa [List.flatMap_singleton'] at more
  rw [TypeExpr.written, readShape_written source read, TypeExpr.clauses, typeClauses_eq,
    ← List.flatMap_def, single_several, List.map_flatMap]
  · refine congrArg Tree.union (List.flatMap_congr fun type member => ?_)
    exact (alternatives_readShape source (plain type member).areRead).symm
  · rw [List.length_map]
    omega

theorem isReadBack_union :
    IsReadBack source (.union types) ↔ (TypeExpr.union types).readsBack = true := by
  have ok : (TypeExpr.union types).written.ok = types.all fun type => type.written.ok := by
    rw [TypeExpr.written, Clauses.ok_written, TypeExpr.clauses, typeClauses_eq, List.all_flatten,
      List.all_map]
    exact congrArg _ (funext fun type => (Clauses.ok_written type.clauses).symm)
  rw [IsReadBack, ok, List.all_eq_true, readShape_union source plain several, shape_union,
    Tree.union.injEq, TypeExpr.readsBack, allReadBack_iff_isReadBack source decides]
  refine and_congr_right fun _ => ⟨fun same type member => ?_, fun same => ?_⟩
  · have shorter : ∀ type ∈ types, type.shape.alternatives.length ≤
        (readShape source type.written).alternatives.length := by
      intro type member
      rw [TypeExpr.written, alternatives_readShape source (plain type member).areRead, List.length_map]
      exact alternatives_le_clauses (plain type member)
    refine Tree.eq_of_alternatives (eq_of_flatMap_eq same shorter type member) ?_ ?_
    · exact fun members union => length_ne_one_of_readShape source (plain type member).areRead union
    · intro members union
      have enough := (plain type member).two_le_alternatives union
      omega
  · exact List.flatMap_congr fun type member => congrArg Tree.alternatives (same type member)

omit decides several in
/-- The operands of an intersection are those of its members. -/
theorem flatten_intersection : (TypeExpr.intersection types).clauses.flatten =
    types.flatMap fun type => type.clauses.flatten := by
  rw [TypeExpr.clauses, typeClauses_eq, Clauses.flatten_glued (areRead_clauses plain), List.flatMap_map]

omit decides in
/-- If as many parts are read as there are members, each member is a single operand. -/
theorem single_of_intersection
    (same : readShape source (TypeExpr.intersection types).written = .intersection (types.map TypeExpr.shape))
    {type : TypeExpr} (member : type ∈ types) :
    type.clauses = type.written.clauses ∧ readShape source type.written = type.shape := by
  have read := (TypeExpr.IsPlain.intersection several plain).areRead
  obtain ⟨operands, clause, parts⟩ := exists_clause_of_readShape source read same
  have all := flatten_intersection plain
  rw [clause, List.flatten_singleton] at all
  have parts : types.flatMap (fun type => type.clauses.flatten.map (readShape source)) =
      types.flatMap fun type => [type.shape] := by
    rw [← List.map_flatMap, ← all, parts]
    exact List.map_eq_flatMap
  have enough : ∀ type ∈ types, [type.shape].length ≤
      (type.clauses.flatten.map (readShape source)).length := by
    intro type member
    have some := (plain type member).areRead.flatten_ne_nil
    rw [List.length_map]
    exact List.length_pos_iff.mpr some
  have own := eq_of_flatMap_eq parts enough type member
  have one := congrArg List.length own
  rw [List.length_map] at one
  have single := (plain type member).areRead.single_of_flatten one
  refine ⟨single, ?_⟩
  rw [single] at own
  exact List.singleton_inj.mp own

omit decides in
theorem readShape_intersection (single : ∀ type ∈ types, type.clauses = type.written.clauses) :
    readShape source (TypeExpr.intersection types).written =
      .intersection (types.map fun type => readShape source type.written) := by
  have read := (TypeExpr.IsPlain.intersection several plain).areRead
  have clauses : (TypeExpr.intersection types).clauses = [types.map TypeExpr.written] := by
    have each : types.map TypeExpr.clauses = (types.map TypeExpr.written).map Written.clauses := by
      rw [List.map_map]
      exact List.map_congr_left single
    rw [TypeExpr.clauses, typeClauses_eq, each]
    refine Clauses.glued_operands (mt List.map_eq_nil_iff.mp ?_)
    exact List.ne_nil_of_length_pos (Nat.lt_of_lt_of_le Nat.two_pos several)
  rw [TypeExpr.written, readShape_written source read, clauses, List.map_singleton]
  show clauseShape source (types.map TypeExpr.written) = _
  rw [clauseShape, List.map_map, single_several]
  · rfl
  · rw [List.length_map]
    omega

/-- No parentheses keep the members of an intersection apart from their operators. -/
theorem isReadBack_intersection :
    IsReadBack source (.intersection types) ↔ (TypeExpr.intersection types).readsBack = true := by
  have ok : (TypeExpr.intersection types).written.ok = types.all fun type => type.written.ok := by
    rw [TypeExpr.written, Clauses.ok_flatten, flatten_intersection plain, List.all_flatMap]
    exact congrArg _ (funext fun type => (Clauses.ok_flatten type.clauses).symm)
  rw [IsReadBack, ok, List.all_eq_true, shape_intersection, TypeExpr.readsBack, Bool.and_eq_true,
    allReadBack_iff_isReadBack source decides, and_assoc, List.all_eq_true]
  refine and_congr_right fun _ => ⟨fun same => ?_, fun kept => ?_⟩
  · refine ⟨fun type member => (single_of_intersection source plain several same member).2,
      fun type member => ?_⟩
    obtain ⟨single, back⟩ := single_of_intersection source plain several same member
    have whole := (isCombined_written_iff source (plain type member).areRead).mpr single
    rw [← TypeExpr.written, back, isCombined_shape] at whole
    rw [whole, Bool.not_false]
  · obtain ⟨same, whole⟩ := kept
    rw [readShape_intersection source plain several fun type member => ?_]
    · exact congrArg Tree.intersection (List.map_congr_left same)
    · refine (isCombined_written_iff source (plain type member).areRead).mp ?_
      rw [← TypeExpr.written, same type member, isCombined_shape]
      exact Bool.not_eq_true' _ ▸ whole type member

end Several

/-- The property with the type that is read of it. -/
def lowerField (field : String × Bool × TypeExpr) : String × Bool × TypeExpr :=
  Prod.map id (Prod.map id fun type => type.written.tree.lower source) field

theorem lower_object (fields : List (String × Bool × TypeExpr)) :
    (Written.object (fields.map writtenField)).tree.lower source =
      .object (propertyMembers (fields.map (lowerField source))) := by
  rw [Written.object, TypeTree.lower, propertyMembers]
  congr 1
  induction fields with
  | nil => rfl
  | cons field rest ih =>
    rw [List.map_cons, List.map_cons, List.map_cons, List.map_cons, lowerMembers, ih]
    rfl

/-- Of properties of one name the last one is printed. -/
theorem isReadBack_object {fields : List (String × Bool × TypeExpr)}
    (decides : ∀ field ∈ fields, IsReadBack source field.2.2 ↔ field.2.2.readsBack = true) :
    IsReadBack source (.object (propertyMembers fields)) ↔
      (TypeExpr.object (propertyMembers fields)).readsBack = true := by
  have once : Keyed.ofList ((Keyed.ofList fields).map (lowerField source)) =
      (Keyed.ofList fields).map (lowerField source) := by
    refine Keyed.ofList_of_nodup ?_
    rw [List.map_map]
    exact Keyed.nodup_ofList fields
  have read : readShape source (Written.object ((Keyed.ofList fields).map writtenField)) =
      .object ((Keyed.ofList fields).map fun field =>
        (field.1, field.2.1, readShape source field.2.2.written)) none := by
    rw [readShape, treeShape, lower_object, shape_object, once, List.map_map]
    rfl
  have ok : (Written.object ((Keyed.ofList fields).map writtenField)).ok =
      (Keyed.ofList fields).all fun field => field.2.2.written.ok := by
    rw [Written.object, List.all_map]
    rfl
  rw [isReadBack_operand source (clauses_object fields), read, ok, shape_object, Tree.object.injEq,
    readsBack_object, List.map_inj_left, List.all_eq_true, and_iff_left rfl]
  constructor
  · rintro ⟨ok, same⟩ field member
    have own := congrArg (fun branch : Branch => branch.2.2) (same field member)
    exact (decides field (Keyed.mem_ofList member)).mp ⟨ok field member, own⟩
  · intro back
    have each := fun field member => (decides field (Keyed.mem_ofList member)).mpr (back field member)
    exact ⟨fun field member => (each field member).1, fun field member =>
      congrArg (fun tree : Tree => ((field.1, field.2.1, tree) : Branch)) (each field member).2⟩

/-- **The text of a plain type is read as a type of its structure exactly if it should be.** -/
theorem isReadBack_iff {type : TypeExpr} (plain : type.IsPlain) :
    IsReadBack source type ↔ type.readsBack = true := by
  induction plain with
  | keyword keyword =>
    have own : (TypeExpr.keyword keyword).clauses = (Written.keyword keyword).clauses := by
      rw [TypeExpr.clauses]
    rw [isReadBack_operand source own]
    exact iff_of_true ⟨rfl, rfl⟩ rfl
  | stringLiteral value =>
    have own : (TypeExpr.stringLiteral value).clauses = (Written.literal value).clauses := by
      rw [TypeExpr.clauses]
    rw [isReadBack_operand source own]
    exact and_iff_left rfl
  | array plain ih => exact isReadBack_array source plain ih
  | tuple _ ih => exact isReadBack_tuple source ih
  | union several plain ih => exact isReadBack_union source ih plain several
  | intersection several plain ih => exact isReadBack_intersection source ih plain several
  | object _ _ ih => exact isReadBack_object source ih

end Step

/-! ### What is read is plain -/

section Plain

variable (source : List Char)

/-- A plain type is read of the text. -/
def ReadsPlain (written : Written) : Prop :=
  (written.tree.lower source).IsPlain

variable {source} {clauses : Clauses}

theorem plain_single {combine : List TypeTree → TypeTree} {join : List TypeExpr → TypeExpr}
    (lower : ∀ trees, (combine trees).lower source = join (trees.map (TypeTree.lower source)))
    (joined : ∀ types : List TypeExpr, 2 ≤ types.length → (∀ type ∈ types, type.IsPlain) → (join types).IsPlain)
    {trees : List TypeTree} (some : trees ≠ [])
    (plain : ∀ tree ∈ trees, (tree.lower source).IsPlain) : ((single combine trees).lower source).IsPlain := by
  match trees, some, plain with
  | [tree], _, plain => exact plain tree List.mem_cons_self
  | first :: second :: others, _, plain =>
    show ((combine (first :: second :: others)).lower source).IsPlain
    rw [lower]
    exact joined _ (by simp) (List.forall_mem_map.mpr plain)

theorem readsPlain_written (read : clauses.AreRead)
    (plain : ∀ operand ∈ clauses.flatten, ReadsPlain source operand) : ReadsPlain source clauses.written := by
  have union : ∀ trees, (TypeTree.union trees).lower source = .union (trees.map (TypeTree.lower source)) := by
    intro trees
    rw [TypeTree.lower, lowerTypes_eq]
  have intersection : ∀ trees, (TypeTree.intersection trees).lower source =
      .intersection (trees.map (TypeTree.lower source)) := by
    intro trees
    rw [TypeTree.lower, lowerTypes_eq]
  rw [ReadsPlain, Clauses.tree_written]
  refine plain_single union (fun _ => .union) (mt List.map_eq_nil_iff.mp read.nonempty) ?_
  refine List.forall_mem_map.mpr fun operands member => ?_
  refine plain_single intersection (fun _ => .intersection)
    (mt List.map_eq_nil_iff.mp (read.operands operands member).1) ?_
  exact List.forall_mem_map.mpr fun operand inside =>
    plain operand (List.mem_flatten.mpr ⟨operands, member, inside⟩)

/-- The operands of a list type. -/
theorem readsPlain_array (read : clauses.AreRead)
    (plain : ∀ operand ∈ clauses.flatten, ReadsPlain source operand) :
    ∀ operand ∈ clauses.array.flatten, ReadsPlain source operand := by
  rw [Clauses.array]
  split
  · intro operand member
    obtain rfl : operand = clauses.written.group.list := by
      simpa [Written.clauses] using member
    exact (readsPlain_written read plain).array
  · obtain ⟨before, operands, operand, rfl⟩ := read.exists_concat
    rw [Clauses.listed_concat]
    intro other member
    simp only [List.flatten_append, List.flatten_singleton, List.mem_append, List.mem_singleton]
      at member plain
    rcases member with old | old | rfl
    · exact plain other (.inl old)
    · exact plain other (.inr (.inl old))
    · exact (plain operand (.inr (.inr rfl))).array

/-- **What is read of the text of a plain type is plain.** -/
theorem readsPlain_operands {type : TypeExpr} (plain : type.IsPlain) :
    ∀ operand ∈ type.clauses.flatten, ReadsPlain source operand := by
  have own : ∀ {written : Written}, ReadsPlain source written →
      ∀ operand ∈ written.clauses.flatten, ReadsPlain source operand := by
    intro written plain operand member
    obtain rfl : operand = written := by simpa [Written.clauses] using member
    exact plain
  induction plain with
  | keyword keyword =>
    rw [TypeExpr.clauses]
    exact own (.keyword keyword)
  | stringLiteral value =>
    rw [TypeExpr.clauses]
    exact own (.stringLiteral value)
  | array plain ih =>
    rw [TypeExpr.clauses]
    exact readsPlain_array plain.areRead ih
  | @tuple elements plain ih =>
    rw [TypeExpr.clauses, typeClauses_eq, List.map_map]
    refine own ?_
    rw [ReadsPlain, Written.tuple, TypeTree.lower, lowerTypes_eq]
    refine .tuple (List.forall_mem_map.mpr (List.forall_mem_map.mpr (List.forall_mem_map.mpr ?_)))
    exact fun element member => readsPlain_written (plain element member).areRead (ih element member)
  | @union members _ plain ih =>
    rw [TypeExpr.clauses, typeClauses_eq]
    intro operand member
    obtain ⟨operands, inside, member⟩ := List.mem_flatten.mp member
    obtain ⟨clauses, group, inside⟩ := List.mem_flatten.mp inside
    obtain ⟨type, among, rfl⟩ := List.mem_map.mp group
    exact ih type among operand (List.mem_flatten.mpr ⟨operands, inside, member⟩)
  | @intersection members _ plain ih =>
    rw [flatten_intersection plain]
    intro operand member
    obtain ⟨type, among, member⟩ := List.mem_flatMap.mp member
    exact ih type among operand member
  | @object fields names plain ih =>
    rw [clauses_object]
    refine own ?_
    rw [ReadsPlain, lower_object]
    refine .object (List.forall_mem_map.mpr fun field member => names field (Keyed.mem_ofList member))
      (List.forall_mem_map.mpr fun field member => ?_)
    have among := Keyed.mem_ofList member
    exact readsPlain_written (plain field among).areRead (ih field among)

end Plain

/-! ### Texts of nodes -/

section Texts

variable {symbols other : Symbols} {bound bound' : List String} {type : TypeExpr}

/-- The text of the type at a place is a type, and when that is resolved, at the given moment, it has the
structure of the type at the place. -/
def Graph.TextReadsBack (graph : Graph) (id : TypeId) (again : Moment symbols bound) : Prop :=
  ∃ type tree, readType? (graph.text id).toList = some type ∧ graph.HasTree id tree ∧
    (again.resolve type).2.HasTree (again.resolve type).1 tree

/-- A plain type that is resolved at a moment of a run. -/
theorem Moment.prints (moment : Moment symbols bound) (plain : type.IsPlain) :
    (moment.resolve type).2.Prints (moment.resolve type).1 type :=
  (renders_resolve plain moment.graph moment.reached.spelled).shows

/-- What is read from the text of a plain type is resolved to what is read of it. -/
theorem textReadsBack_iff_isReadBack (plain : type.IsPlain) (moment : Moment symbols bound)
    (again : Moment other bound') :
    (moment.resolve type).2.TextReadsBack (moment.resolve type).1 again ↔
      IsReadBack type.written.chars type := by
  have printed := moment.prints plain
  have read := readType?_written plain.areRead.isPhrase
  have read_plain : ReadsPlain type.written.chars type.written :=
    readsPlain_written plain.areRead (readsPlain_operands plain)
  have printed' := again.prints read_plain
  rw [← TypeExpr.written] at read
  rw [Graph.TextReadsBack, IsReadBack, printed.text, read]
  constructor
  · rintro ⟨found, tree, held, shown, shown'⟩
    cases ok : type.written.ok with
    | false =>
      rw [ok] at held
      cases held
    | true =>
      rw [ok] at held
      obtain rfl := Option.some.inj held
      exact ⟨rfl, (printed'.tree.unique shown').trans (printed.tree.unique shown).symm⟩
  · rintro ⟨ok, same⟩
    rw [if_pos ok]
    exact ⟨_, type.shape, rfl, printed.tree, same ▸ printed'.tree⟩

/-- **The text of a plain type is read as a type of its structure exactly if the type is read back.** -/
theorem text_readsBack_iff (plain : type.IsPlain) (moment : Moment symbols bound)
    (again : Moment other bound') :
    (moment.resolve type).2.TextReadsBack (moment.resolve type).1 again ↔ type.readsBack = true :=
  (textReadsBack_iff_isReadBack plain moment again).trans (isReadBack_iff _ plain)

end Texts

/-- Lists of strings or nulls, an intersection of object types and a literal, as properties. -/
def listsAndParts : TypeExpr :=
  .object (propertyMembers
    [("lists", true, .array (.union [.keyword .string, .array (.keyword .null)])),
      ("parts", false, .tuple [.intersection [.object [], .object (propertyMembers
        [("name", false, .stringLiteral "a\"b")])], .array (.object [])])])

theorem listsAndParts_isPlain : listsAndParts.IsPlain := by
  refine .object (by decide) (List.forall_mem_cons.mpr ⟨?_, List.forall_mem_singleton.mpr ?_⟩)
  · refine .array (.union (Nat.le_refl 2) (List.forall_mem_cons.mpr ⟨?_, List.forall_mem_singleton.mpr ?_⟩))
    · exact .keyword .string
    · exact .array (.keyword .null)
  · refine .tuple (List.forall_mem_cons.mpr ⟨?_, List.forall_mem_singleton.mpr ?_⟩)
    · refine .intersection (Nat.le_refl 2)
        (List.forall_mem_cons.mpr ⟨?_, List.forall_mem_singleton.mpr ?_⟩)
      · exact @TypeExpr.IsPlain.object [] (by decide) (List.forall_mem_nil _)
      · exact .object (by decide) (List.forall_mem_singleton.mpr (.stringLiteral _))
    · exact .array (@TypeExpr.IsPlain.object [] (by decide) (List.forall_mem_nil _))

/-- Its text is read back at the start of a run. -/
theorem listsAndParts_readsBack :
    listsAndParts.IsPlain ∧ ((Moment.start boxes).resolve listsAndParts).2.TextReadsBack
      ((Moment.start boxes).resolve listsAndParts).1 (Moment.start boxes) :=
  ⟨listsAndParts_isPlain,
    (text_readsBack_iff listsAndParts_isPlain (Moment.start boxes) (Moment.start boxes)).mpr (by decide)⟩

/-- Lists of objects or nulls. -/
def objectsOrNulls : TypeExpr :=
  .array (.union [.object (propertyMembers [("x", false, .keyword .string)]), .keyword .null])

theorem objectsOrNulls_isPlain : objectsOrNulls.IsPlain := by
  refine .array (.union (Nat.le_refl 2) (List.forall_mem_cons.mpr ⟨?_, List.forall_mem_singleton.mpr ?_⟩))
  · exact .object (by decide) (List.forall_mem_singleton.mpr (.keyword .string))
  · exact .keyword .null

/-- The parentheses around the union are missing, so an object or a list of nulls is read. -/
theorem objectsOrNulls_not_readsBack :
    objectsOrNulls.IsPlain ∧
      ((Moment.start boxes).resolve objectsOrNulls).2.text ((Moment.start boxes).resolve objectsOrNulls).1 =
        "\x7b x: string \x7d | null[]" ∧
      readType? "\x7b x: string \x7d | null[]".toList =
        some (.union [.object [.property "x" false (.keyword .string)], .array (.keyword .null)]) ∧
      ¬((Moment.start boxes).resolve objectsOrNulls).2.TextReadsBack
        ((Moment.start boxes).resolve objectsOrNulls).1 (Moment.start boxes) := by
  refine ⟨objectsOrNulls_isPlain, by decide +kernel, rfl, ?_⟩
  rw [textReadsBack_iff_isReadBack objectsOrNulls_isPlain, isReadBack_iff _ objectsOrNulls_isPlain]
  decide

end SwiftBindings.TypeGraph
