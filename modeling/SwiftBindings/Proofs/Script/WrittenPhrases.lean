/-
**What is written without parentheses.**

Written one behind the other, types are regrouped when they are read: list brackets go to the type
right in front of them, then `&` binds, then `|`. So a text with operators is given by its clauses: the
intersections that its union joins, each the list of its operands. Lists, unions and intersections of
such texts are again such texts (`Clauses.listed`, `List.flatten`, `Clauses.glued`), whose clauses need
not be those of the types that were combined.
-/

import Mathlib.Data.List.ModifyLast
import SwiftBindings.Proofs.Script.WrittenOperators

namespace SwiftBindings.Script

open Declared

/-! ### Texts with a separator -/

section Intercalate

variable {α : Type} (separator : List α)

theorem intercalate_append_append (texts others : List (List α)) (text other : List α) :
    separator.intercalate (texts ++ (text ++ other) :: others) =
      separator.intercalate (texts ++ [text]) ++ separator.intercalate (other :: others) := by
  induction texts with
  | nil => cases others <;> simp [List.intercalate]
  | cons first texts ih =>
    cases texts <;> simp_all [List.intercalate]

theorem intercalate_append_of_ne_nil {texts others : List (List α)} (some : texts ≠ [])
    (more : others ≠ []) : separator.intercalate (texts ++ others) =
      separator.intercalate texts ++ separator ++ separator.intercalate others := by
  obtain ⟨before, text, rfl⟩ := List.eq_nil_or_concat texts |>.resolve_left some
  obtain ⟨other, behind, rfl⟩ := List.exists_cons_of_ne_nil more
  have split := intercalate_append_append separator before (other :: behind) text []
  simp only [List.concat_eq_append, List.append_nil, List.append_assoc, List.singleton_append] at split ⊢
  rw [split]
  simp [List.intercalate]

/-- Texts that are put together group by group. -/
theorem intercalate_flatten {groups : List (List (List α))} (some : ∀ group ∈ groups, group ≠ []) :
    separator.intercalate groups.flatten = separator.intercalate (groups.map separator.intercalate) := by
  induction groups with
  | nil => rfl
  | cons group groups ih =>
    have others := ih fun other member => some other (List.mem_cons_of_mem _ member)
    cases groups with
    | nil => simp [List.intercalate]
    | cons next groups =>
      have more : (next :: groups).flatten ≠ [] := by
        rw [List.flatten_cons]
        exact List.append_ne_nil_of_left_ne_nil (some next (by simp)) _
      rw [List.flatten_cons, intercalate_append_of_ne_nil separator (some group List.mem_cons_self) more,
        others]
      simp [List.intercalate]

end Intercalate

/-! ### Operands -/

/-- List brackets behind a type. -/
def Written.list (inner : Written) : Written :=
  ⟨inner.chars ++ ['[', ']'], inner.ok, .array inner.tree⟩

/-- The type is a union or an intersection. -/
def TypeTree.isCombined : TypeTree → Bool
  | .union _ => true
  | .intersection _ => true
  | _ => false

/-- A type with list brackets, or one that stands for itself. -/
structure Written.IsOperand (written : Written) : Prop where
  /-- What the list brackets are behind. -/
  listed : ∃ (inner : Written) (count : Nat), inner.IsPrimary ∧ written = inner.listed count
  /-- A type in parentheses stands in front of list brackets only. -/
  whole : written.tree.isCombined = false

theorem Written.IsOperand.isAtom {written : Written} (operand : written.IsOperand) : written.IsAtom := by
  obtain ⟨inner, count, primary, rfl⟩ := operand.listed
  exact listed_isAtom primary count

theorem Written.IsPrimary.isOperand {written : Written} (primary : written.IsPrimary)
    (whole : written.tree.isCombined = false) : written.IsOperand := by
  refine ⟨⟨written, 0, primary, ?_⟩, whole⟩
  rw [Written.listed]
  simp [brackets]

theorem Written.list_listed (inner : Written) (count : Nat) :
    (inner.listed count).list = inner.listed (count + 1) := by
  have more : brackets (count + 1) = brackets count ++ ['[', ']'] := by
    simp [brackets, List.replicate_succ']
  rw [Written.list, Written.listed, Written.listed, more, Function.iterate_succ_apply', List.append_assoc]

theorem Written.IsOperand.list {written : Written} (operand : written.IsOperand) :
    written.list.IsOperand := by
  obtain ⟨inner, count, primary, rfl⟩ := operand.listed
  exact ⟨⟨inner, count + 1, primary, inner.list_listed count⟩, rfl⟩

theorem Written.IsPhrase.group_list {written : Written} (phrase : written.IsPhrase) :
    written.group.list.IsOperand := by
  refine ⟨⟨written.group, 1, phrase.group, ?_⟩, rfl⟩
  rfl

/-! ### Clauses -/

/-- The operands of the intersections of a union. -/
abbrev Clauses := List (List Written)

/-- The text with all operators. -/
def Clauses.written (clauses : Clauses) : Written :=
  .phrase (clauses.map .clause)

/-- There is an operand in each clause, and a clause. -/
structure Clauses.AreRead (clauses : Clauses) : Prop where
  nonempty : clauses ≠ []
  operands : ∀ clause ∈ clauses, clause ≠ [] ∧ ∀ operand ∈ clause, operand.IsOperand

theorem Clauses.AreRead.isPhrase {clauses : Clauses} (read : clauses.AreRead) :
    clauses.written.IsPhrase := by
  refine phrase_isPhrase (mt List.map_eq_nil_iff.mp read.nonempty) fun clause member => ?_
  obtain ⟨operands, inside, rfl⟩ := List.mem_map.mp member
  obtain ⟨some, each⟩ := read.operands operands inside
  exact clause_isClause some fun operand member => (each operand member).isAtom

section Written

variable (clauses : Clauses)

theorem Clauses.chars_written : clauses.written.chars =
    [' ', '|', ' '].intercalate (clauses.map fun operands =>
      [' ', '&', ' '].intercalate (operands.map Written.chars)) := by
  rw [Clauses.written, Written.phrase, Written.joined, List.map_map]
  rfl

theorem Clauses.ok_written : clauses.written.ok = clauses.all fun operands => operands.all Written.ok := by
  rw [Clauses.written, Written.phrase, Written.joined, List.all_map]
  rfl

theorem Clauses.ok_flatten : clauses.written.ok = clauses.flatten.all Written.ok := by
  rw [Clauses.ok_written, List.all_flatten]

theorem Clauses.tree_written : clauses.written.tree =
    single .union (clauses.map fun operands => single .intersection (operands.map Written.tree)) := by
  simp only [Clauses.written, Written.phrase, Written.joined, List.map_map]
  rfl

end Written

/-! ### A single operand -/

/-- The clauses of an operand. -/
def Written.clauses (operand : Written) : Clauses :=
  [[operand]]

@[simp] theorem Written.clauses_written (operand : Written) : operand.clauses.written = operand := by
  simp [Written.clauses, Clauses.written, Written.phrase, Written.clause, Written.joined, single,
    List.intercalate]

theorem Written.IsOperand.areRead {operand : Written} (is : operand.IsOperand) :
    operand.clauses.AreRead := by
  refine ⟨List.cons_ne_nil _ _, fun clause member => ?_⟩
  rw [List.mem_singleton.mp member]
  refine ⟨List.cons_ne_nil _ _, fun other member => ?_⟩
  rwa [List.mem_singleton.mp member]

/-- Operators stand between blanks. -/
theorem blank_mem_intercalate {mark : Char} {texts : List (List Char)} (several : 2 ≤ texts.length) :
    ' ' ∈ [' ', mark, ' '].intercalate texts := by
  match texts with
  | [] => cases several
  | [_] => exact absurd several (Nat.lt_irrefl 1)
  | first :: second :: others => simp [List.intercalate]

/-- A text without a blank has a single operand. -/
theorem Clauses.AreRead.exists_operand {clauses : Clauses} (read : clauses.AreRead)
    (blank : ' ' ∉ clauses.written.chars) : ∃ operand : Written, clauses = operand.clauses := by
  rw [Clauses.chars_written] at blank
  obtain ⟨operands, others, rfl⟩ := List.exists_cons_of_ne_nil read.nonempty
  obtain rfl : others = [] := by
    cases others with
    | nil => rfl
    | cons other others => exact absurd (blank_mem_intercalate (by simp)) blank
  have some := (read.operands operands List.mem_cons_self).1
  obtain ⟨operand, more, rfl⟩ := List.exists_cons_of_ne_nil some
  cases more with
  | nil => exact ⟨operand, rfl⟩
  | cons second more =>
    refine absurd ?_ blank
    rw [List.map_cons, List.map_nil]
    simp [List.intercalate]

/-! ### Lists, unions and intersections -/

/-- List brackets behind the text. -/
def Clauses.listed (clauses : Clauses) : Clauses :=
  clauses.modifyLast (List.modifyLast Written.list)

/-- A list type. Its element stands in parentheses where the text has a blank and does not start with
a brace. -/
def Clauses.array (clauses : Clauses) : Clauses :=
  if ' ' ∈ clauses.written.chars ∧ clauses.written.chars.head? ≠ some '\x7b' then
    clauses.written.group.list.clauses
  else clauses.listed

/-- The text with another one behind an ampersand. -/
def Clauses.glue (clauses : Clauses) : Clauses → Clauses
  | [] => clauses
  | first :: others => clauses.modifyLast (· ++ first) ++ others

/-- The texts with ampersands between them. -/
def Clauses.glued : List Clauses → Clauses
  | [] => []
  | [clauses] => clauses
  | clauses :: others => clauses.glue (glued others)

section Combined

variable {clauses others : Clauses} {groups : List Clauses}

theorem Clauses.AreRead.exists_concat (read : clauses.AreRead) :
    ∃ before operands operand, clauses = before ++ [operands ++ [operand]] := by
  obtain ⟨before, clause, rfl⟩ := (List.eq_nil_or_concat clauses).resolve_left read.nonempty
  have some := (read.operands clause (by simp)).1
  obtain ⟨operands, operand, rfl⟩ := (List.eq_nil_or_concat clause).resolve_left some
  exact ⟨before, operands, operand, by simp⟩

theorem Clauses.listed_concat (before : Clauses) (operands : List Written) (operand : Written) :
    Clauses.listed (before ++ [operands ++ [operand]]) = before ++ [operands ++ [operand.list]] := by
  rw [Clauses.listed, List.modifyLast_concat, List.modifyLast_concat]

theorem Clauses.AreRead.listed (read : clauses.AreRead) : clauses.listed.AreRead := by
  obtain ⟨before, operands, operand, rfl⟩ := read.exists_concat
  rw [Clauses.listed_concat]
  refine ⟨by simp, fun clause member => ?_⟩
  rcases List.mem_append.mp member with member | member
  · exact read.operands clause (List.mem_append_left _ member)
  · rw [List.mem_singleton.mp member]
    obtain ⟨_, each⟩ := read.operands (operands ++ [operand]) (by simp)
    refine ⟨by simp, fun other inside => ?_⟩
    rcases List.mem_append.mp inside with inside | inside
    · exact each other (List.mem_append_left _ inside)
    · rw [List.mem_singleton.mp inside]
      exact (each operand (by simp)).list

/-- List brackets make no single operand of several. -/
theorem Clauses.AreRead.single_of_listed (read : clauses.AreRead) {operand : Written}
    (single : clauses.listed = operand.clauses) : clauses = clauses.written.clauses := by
  obtain ⟨before, operands, last, rfl⟩ := read.exists_concat
  rw [Clauses.listed_concat] at single
  obtain ⟨rfl, rfl, _⟩ : before = [] ∧ operands = [] ∧ last.list = operand := by
    simpa [Written.clauses, List.append_eq_singleton_iff] using single
  exact congrArg Written.clauses last.clauses_written.symm

/-- **List brackets stand behind the text.** -/
theorem Clauses.AreRead.chars_listed (read : clauses.AreRead) :
    clauses.listed.written.chars = clauses.written.chars ++ ['[', ']'] := by
  obtain ⟨before, operands, operand, rfl⟩ := read.exists_concat
  have clause : [' ', '&', ' '].intercalate ((operands ++ [operand.list]).map Written.chars) =
      [' ', '&', ' '].intercalate ((operands ++ [operand]).map Written.chars) ++ ['[', ']'] := by
    simp only [List.map_append, List.map_cons, List.map_nil, Written.list]
    rw [intercalate_append_append]
    simp [List.intercalate]
  rw [Clauses.listed_concat, Clauses.chars_written, Clauses.chars_written]
  simp only [List.map_append, List.map_cons, List.map_nil] at clause ⊢
  rw [clause, intercalate_append_append]
  simp [List.intercalate]

theorem Clauses.AreRead.chars_array (read : clauses.AreRead) : clauses.array.written.chars =
    if ' ' ∈ clauses.written.chars ∧ clauses.written.chars.head? ≠ some '\x7b' then
      '(' :: (clauses.written.chars ++ [')', '[', ']'])
    else clauses.written.chars ++ ['[', ']'] := by
  rw [Clauses.array]
  split
  · simp [Written.list, Written.group]
  · exact read.chars_listed

theorem Clauses.AreRead.array (read : clauses.AreRead) : clauses.array.AreRead := by
  rw [Clauses.array]
  split
  · exact read.isPhrase.group_list.areRead
  · exact read.listed

/-! ### Unions -/

theorem Clauses.areRead_flatten (some : groups ≠ []) (read : ∀ group ∈ groups, group.AreRead) :
    Clauses.AreRead groups.flatten := by
  refine ⟨?_, fun clause member => ?_⟩
  · obtain ⟨group, others, rfl⟩ := List.exists_cons_of_ne_nil some
    exact List.append_ne_nil_of_left_ne_nil (read group List.mem_cons_self).nonempty _
  · obtain ⟨group, inside, member⟩ := List.mem_flatten.mp member
    exact (read group inside).operands clause member

/-- **Texts with bars between them have the clauses of all of them.** -/
theorem Clauses.chars_flatten (read : ∀ group ∈ groups, group.AreRead) :
    (Clauses.written groups.flatten).chars =
      [' ', '|', ' '].intercalate (groups.map fun group => group.written.chars) := by
  simp only [Clauses.chars_written]
  rw [List.map_flatten, intercalate_flatten, List.map_map]
  · rfl
  · intro texts member
    obtain ⟨group, inside, rfl⟩ := List.mem_map.mp member
    exact mt List.map_eq_nil_iff.mp (read group inside).nonempty

/-! ### Intersections -/

theorem Clauses.glue_concat (before : Clauses) (operands first : List Written) (behind : Clauses) :
    Clauses.glue (before ++ [operands]) (first :: behind) = before ++ (operands ++ first) :: behind := by
  rw [Clauses.glue, List.modifyLast_concat, List.append_assoc]
  rfl

theorem Clauses.AreRead.glue (read : clauses.AreRead) (read' : others.AreRead) :
    (clauses.glue others).AreRead := by
  obtain ⟨before, operands, rfl⟩ := (List.eq_nil_or_concat clauses).resolve_left read.nonempty
  obtain ⟨first, behind, rfl⟩ := List.exists_cons_of_ne_nil read'.nonempty
  rw [List.concat_eq_append] at read ⊢
  rw [Clauses.glue_concat]
  refine ⟨by simp, fun clause member => ?_⟩
  rcases List.mem_append.mp member with member | member
  · exact read.operands clause (List.mem_append_left _ member)
  · rcases List.mem_cons.mp member with rfl | member
    · obtain ⟨some, each⟩ := read.operands operands (by simp)
      obtain ⟨_, each'⟩ := read'.operands first List.mem_cons_self
      exact ⟨List.append_ne_nil_of_left_ne_nil some _, fun operand inside =>
        (List.mem_append.mp inside).elim (each operand) (each' operand)⟩
    · exact read'.operands clause (List.mem_cons_of_mem _ member)

theorem Clauses.AreRead.chars_glue (read : clauses.AreRead) (read' : others.AreRead) :
    (clauses.glue others).written.chars =
      clauses.written.chars ++ [' ', '&', ' '] ++ others.written.chars := by
  obtain ⟨before, operands, rfl⟩ := (List.eq_nil_or_concat clauses).resolve_left read.nonempty
  obtain ⟨first, behind, rfl⟩ := List.exists_cons_of_ne_nil read'.nonempty
  rw [List.concat_eq_append] at read ⊢
  have clause : [' ', '&', ' '].intercalate ((operands ++ first).map Written.chars) =
      [' ', '&', ' '].intercalate (operands.map Written.chars) ++
        ([' ', '&', ' '] ++ [' ', '&', ' '].intercalate (first.map Written.chars)) := by
    have some := (read.operands operands (by simp)).1
    have some' := (read'.operands first List.mem_cons_self).1
    rw [List.map_append, intercalate_append_of_ne_nil _ (mt List.map_eq_nil_iff.mp some)
      (mt List.map_eq_nil_iff.mp some'), List.append_assoc]
  rw [Clauses.glue_concat, Clauses.chars_written, Clauses.chars_written, Clauses.chars_written]
  rw [List.map_append, List.map_cons, clause, intercalate_append_append, List.map_append, List.map_cons,
    List.map_nil, List.append_assoc]
  -- The ampersand is in front of the first of the clauses behind it.
  exact congrArg _ (intercalate_append_append _ [] _ _ _)

theorem Clauses.AreRead.flatten_glue (read : clauses.AreRead) (others : Clauses) :
    (clauses.glue others).flatten = clauses.flatten ++ others.flatten := by
  obtain ⟨before, operands, rfl⟩ := (List.eq_nil_or_concat clauses).resolve_left read.nonempty
  rw [List.concat_eq_append]
  cases others with
  | nil => rw [Clauses.glue, List.flatten_nil, List.append_nil]
  | cons first behind =>
    rw [Clauses.glue_concat]
    simp

/-- **Texts with ampersands between them.** -/
theorem Clauses.areRead_glued (some : groups ≠ []) (read : ∀ group ∈ groups, group.AreRead) :
    (Clauses.glued groups).AreRead ∧ (Clauses.glued groups).written.chars =
      [' ', '&', ' '].intercalate (groups.map fun group => group.written.chars) := by
  induction groups with
  | nil => exact absurd rfl some
  | cons group groups ih =>
    have first := read group List.mem_cons_self
    cases groups with
    | nil => exact ⟨first, List.intercalate_singleton.symm⟩
    | cons next groups =>
      obtain ⟨others, chars⟩ :=
        ih (List.cons_ne_nil _ _) fun other member => read other (List.mem_cons_of_mem _ member)
      refine ⟨first.glue others, ?_⟩
      rw [Clauses.glued, first.chars_glue others, chars]
      · simp [List.intercalate_cons_cons]
      · simp

theorem Clauses.flatten_glued (read : ∀ group ∈ groups, group.AreRead) :
    (Clauses.glued groups).flatten = groups.flatMap List.flatten := by
  induction groups with
  | nil => rfl
  | cons group groups ih =>
    have others := ih fun other member => read other (List.mem_cons_of_mem _ member)
    cases groups with
    | nil => simp [Clauses.glued]
    | cons next groups =>
      rw [Clauses.glued, (read group List.mem_cons_self).flatten_glue, others]
      · rfl
      · simp

/-- Operands with ampersands between them are a single clause. -/
theorem Clauses.glued_operands {operands : List Written} (some : operands ≠ []) :
    Clauses.glued (operands.map Written.clauses) = [operands] := by
  induction operands with
  | nil => exact absurd rfl some
  | cons operand others ih =>
    cases others with
    | nil => rfl
    | cons next others =>
      have rest := ih (List.cons_ne_nil _ _)
      rw [List.map_cons] at rest ⊢
      rw [List.map_cons, Clauses.glued, rest]
      · exact Clauses.glue_concat [] [operand] _ []
      · simp

theorem Clauses.AreRead.flatten_ne_nil (read : clauses.AreRead) : clauses.flatten ≠ [] := by
  obtain ⟨operands, others, rfl⟩ := List.exists_cons_of_ne_nil read.nonempty
  exact List.append_ne_nil_of_left_ne_nil (read.operands _ List.mem_cons_self).1 _

/-- Clauses with one operand between them are a single operand. -/
theorem Clauses.AreRead.single_of_flatten (read : clauses.AreRead) (one : clauses.flatten.length = 1) :
    clauses = clauses.written.clauses := by
  obtain ⟨operands, others, rfl⟩ := List.exists_cons_of_ne_nil read.nonempty
  obtain ⟨operand, more, rfl⟩ := List.exists_cons_of_ne_nil (read.operands _ List.mem_cons_self).1
  rw [List.flatten_cons, List.length_append, List.length_cons] at one
  obtain rfl : more = [] := List.eq_nil_of_length_eq_zero (by omega)
  obtain rfl : others = [] := by
    cases others with
    | nil => rfl
    | cons other others =>
      have some := (read.operands other (by simp)).1
      have long := List.length_pos_iff.mpr some
      rw [List.flatten_cons, List.length_append] at one
      omega
  exact congrArg Written.clauses operand.clauses_written.symm

end Combined

end SwiftBindings.Script
