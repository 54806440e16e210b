/-
**Positions and offsets.**

A position is reported for an offset, and it can be walked to from the start of the text: past as many
line feeds as there are lines before its own, then along its line, one character for each column before
its own. The walk never leaves that line, so there is none to a column behind its end.

**The main statement.** `positions_identify_offsets`: positions come in the order of the offsets that they
are reported for, the line deciding before the column, and the walk to a position ends at an offset
exactly if the position is reported for that offset.

One character more moves the position (`lt_after`) and the walk to it (`rest?_after`) one step on, and so
does a whole text in front of an offset (`lt_foldl_after`, `rest?_afterAll`).
-/

import Mathlib.Data.List.Induction
import Mathlib.Data.Prod.Lex
import Mathlib.Data.String.Basic
import SwiftBindings.Text.Position

namespace SwiftBindings.Text

/-! ### The order of positions -/

/-- The line before the column. -/
def Position.key (position : Position) : Nat ×ₗ Nat :=
  toLex (position.line, position.column)

theorem Position.key_injective : Function.Injective Position.key := by
  rintro ⟨line, column⟩ ⟨line', column'⟩ same
  obtain ⟨rfl, rfl⟩ := Prod.mk.inj (toLex.injective same)
  rfl

/-- Positions come line by line, and on one line column by column. -/
instance : LinearOrder Position :=
  LinearOrder.lift' Position.key Position.key_injective

theorem Position.lt_iff {one other : Position} :
    one < other ↔ one.line < other.line ∨ one.line = other.line ∧ one.column < other.column :=
  Prod.Lex.lt_iff

/-- A character moves on. -/
theorem Position.lt_after (position : Position) (c : Char) : position < position.after c := by
  rw [Position.lt_iff, Position.after]
  split
  · exact .inl (Nat.lt_succ_self _)
  · exact .inr ⟨rfl, Nat.lt_succ_self _⟩

theorem Position.lt_foldl_after {chars : List Char} (some : chars ≠ []) (position : Position) :
    position < chars.foldl Position.after position := by
  induction chars generalizing position with
  | nil => exact absurd rfl some
  | cons c rest ih =>
    rw [List.foldl_cons]
    by_cases last : rest = []
    · rw [last]
      exact position.lt_after c
    · exact (position.lt_after c).trans (ih last _)

/-! ### The walk to a position -/

/-- What follows the given number of line feeds, when there are so many. -/
def afterLines? : Nat → List Char → Option (List Char)
  | 0, chars => some chars
  | _ + 1, [] => none
  | count + 1, c :: rest => if c = '\n' then afterLines? count rest else afterLines? (count + 1) rest

/-- What follows the given number of characters, when there are so many in front of the first line
feed. -/
def afterColumns? : Nat → List Char → Option (List Char)
  | 0, chars => some chars
  | _ + 1, [] => none
  | count + 1, c :: rest => if c = '\n' then none else afterColumns? count rest

/-- What follows a position of a text: past the line feeds in front of its line, then along the line. -/
def Position.rest? : Position → List Char → Option (List Char)
  | ⟨line + 1, column + 1⟩, chars => (afterLines? line chars).bind (afterColumns? column)
  | _, _ => none

/-- The offset where the walk to a position ends. -/
def Position.offset? (position : Position) (text : String) : Option Nat :=
  (position.rest? text.toList).map fun rest => byteLength text.toList - byteLength rest

theorem afterLines?_add (more count : Nat) (chars : List Char) :
    afterLines? (count + more) chars = (afterLines? count chars).bind (afterLines? more) := by
  fun_induction afterLines? count chars with
  | case1 chars => rw [Nat.zero_add, Option.bind_some]
  | case2 count => rw [Nat.succ_add, afterLines?, Option.bind_none]
  | case3 count rest ih => rw [Nat.succ_add, afterLines?, if_pos rfl, ih]
  | case4 count c rest other ih => rw [Nat.succ_add, afterLines?, if_neg other, ← ih, Nat.succ_add]

theorem afterColumns?_add (more count : Nat) (chars : List Char) :
    afterColumns? (count + more) chars = (afterColumns? count chars).bind (afterColumns? more) := by
  fun_induction afterColumns? count chars with
  | case1 chars => rw [Nat.zero_add, Option.bind_some]
  | case2 count => rw [Nat.succ_add, afterColumns?, Option.bind_none]
  | case3 count rest => rw [Nat.succ_add, afterColumns?, if_pos rfl, Option.bind_none]
  | case4 count c rest other ih => rw [Nat.succ_add, afterColumns?, if_neg other, ih]

/-- Along a line to its line feed and over it is past one line feed. -/
theorem afterLines?_one {count : Nat} {chars rest : List Char}
    (walked : afterColumns? count chars = some ('\n' :: rest)) : afterLines? 1 chars = some rest := by
  fun_induction afterColumns? count chars with
  | case1 chars =>
    rw [Option.some.inj walked, afterLines?, if_pos rfl, afterLines?]
  | case2 count => cases walked
  | case3 count others => cases walked
  | case4 count c others other ih => rw [afterLines?, if_neg other, ih walked]

theorem Position.rest?_eq_some_iff {position : Position} {chars rest : List Char} :
    position.rest? chars = some rest ↔ ∃ line column start, position = ⟨line + 1, column + 1⟩ ∧
      afterLines? line chars = some start ∧ afterColumns? column start = some rest := by
  constructor
  · intro walked
    obtain ⟨_ | line, _ | column⟩ := position
    · cases walked
    · cases walked
    · cases walked
    · obtain ⟨start, walks⟩ := Option.bind_eq_some_iff.mp walked
      exact ⟨line, column, start, rfl, walks⟩
  · rintro ⟨line, column, start, rfl, walks⟩
    exact Option.bind_eq_some_iff.mpr ⟨start, walks⟩

/-- **One character more**: the walk to the position behind it goes over it. -/
theorem Position.rest?_after {position : Position} {chars rest : List Char} {c : Char}
    (walked : position.rest? chars = some (c :: rest)) :
    (position.after c).rest? chars = some rest := by
  obtain ⟨line, column, start, rfl, lines, columns⟩ := Position.rest?_eq_some_iff.mp walked
  refine Position.rest?_eq_some_iff.mpr ?_
  by_cases feed : c = '\n'
  · refine ⟨line + 1, 0, rest, if_pos feed, ?_, rfl⟩
    rw [afterLines?_add, lines, Option.bind_some, afterLines?_one (feed ▸ columns)]
  · refine ⟨line, column + 1, start, if_neg feed, lines, ?_⟩
    rw [afterColumns?_add, columns, Option.bind_some, afterColumns?, if_neg feed, afterColumns?]

/-- The walk to the position behind a part of the text ends behind that part. -/
theorem Position.rest?_afterAll (before after : List Char) :
    (Position.afterAll before).rest? (before ++ after) = some after := by
  induction before using List.reverseRecOn generalizing after with
  | nil => exact Position.rest?_eq_some_iff.mpr ⟨0, 0, after, rfl, by rw [List.nil_append, afterLines?], rfl⟩
  | append_singleton before c ih =>
    rw [Position.afterAll, List.foldl_concat, List.append_assoc]
    exact Position.rest?_after (ih (c :: after))

/-- What is in front of the line that is walked to. -/
theorem exists_of_afterLines? {count : Nat} {chars rest : List Char}
    (walked : afterLines? count chars = some rest) (line column : Nat) : ∃ before,
      chars = before ++ rest ∧ before.foldl Position.after ⟨line, column⟩ =
        ⟨line + count, if count = 0 then column else 1⟩ := by
  fun_induction afterLines? count chars generalizing line column with
  | case1 chars => exact ⟨[], Option.some.inj walked, rfl⟩
  | case2 count => cases walked
  | case3 count others ih =>
    obtain ⟨before, is, place⟩ := ih walked (line + 1) 1
    refine ⟨'\n' :: before, by rw [is, List.cons_append], ?_⟩
    rw [List.foldl_cons, Position.after, if_pos rfl, place, ite_self, if_neg (Nat.succ_ne_zero count),
      Nat.add_assoc, Nat.add_comm 1]
  | case4 count c others other ih =>
    obtain ⟨before, is, place⟩ := ih walked line (column + 1)
    refine ⟨c :: before, by rw [is, List.cons_append], ?_⟩
    rw [List.foldl_cons, Position.after, if_neg other, place, if_neg (Nat.succ_ne_zero count),
      if_neg (Nat.succ_ne_zero count)]

/-- What is walked over along a line. -/
theorem exists_of_afterColumns? {count : Nat} {chars rest : List Char}
    (walked : afterColumns? count chars = some rest) (line column : Nat) : ∃ before,
      chars = before ++ rest ∧ before.foldl Position.after ⟨line, column⟩ = ⟨line, column + count⟩ := by
  fun_induction afterColumns? count chars generalizing column with
  | case1 chars => exact ⟨[], Option.some.inj walked, rfl⟩
  | case2 count => cases walked
  | case3 count others => cases walked
  | case4 count c others other ih =>
    obtain ⟨before, is, place⟩ := ih walked (column + 1)
    refine ⟨c :: before, by rw [is, List.cons_append], ?_⟩
    rw [List.foldl_cons, Position.after, if_neg other, place, Nat.add_assoc, Nat.add_comm 1]

/-- The walk to a position ends behind a part of the text with that position behind it. -/
theorem Position.exists_of_rest? {position : Position} {chars rest : List Char}
    (walked : position.rest? chars = some rest) :
    ∃ before, chars = before ++ rest ∧ Position.afterAll before = position := by
  obtain ⟨line, column, start, rfl, lines, columns⟩ := Position.rest?_eq_some_iff.mp walked
  obtain ⟨before, rfl, place⟩ := exists_of_afterLines? lines 1 1
  obtain ⟨along, rfl, place'⟩ := exists_of_afterColumns? columns (1 + line) 1
  refine ⟨before ++ along, (List.append_assoc before along rest).symm, ?_⟩
  rw [Position.afterAll, List.foldl_append, place, ite_self, place', Nat.add_comm 1, Nat.add_comm 1]

/-! ### Offsets -/

theorem byteLength_eq (chars : List Char) : byteLength chars = String.utf8Len chars := by
  have from_size : ∀ size, chars.foldl (fun size c => size + c.utf8Size) size =
      size + String.utf8Len chars := by
    induction chars with
    | nil => exact fun size => rfl
    | cons c rest ih =>
      intro size
      rw [List.foldl_cons, ih, String.utf8Len_cons, Nat.add_assoc, Nat.add_comm c.utf8Size]
  rw [byteLength, from_size, Nat.zero_add]

theorem byteLength_append (before after : List Char) :
    byteLength (before ++ after) = byteLength before + byteLength after := by
  rw [byteLength_eq, byteLength_eq, byteLength_eq, String.utf8Len_append]

theorem takeBytes?_append (before after : List Char) :
    takeBytes? (byteLength before) (before ++ after) = some before := by
  rw [byteLength_eq]
  induction before with
  | nil => rw [String.utf8Len_nil, takeBytes?]
  | cons c rest ih => rw [String.utf8Len_cons, List.cons_append, takeBytes?_cons, ih, Option.map_some]

section Splits

variable {text before after : String} {pos : text.Pos} (splits : pos.Splits before after)

include splits

theorem byteIdx_of_splits : pos.offset.byteIdx = byteLength before.toList := by
  rw [byteLength_eq, String.utf8Len_toList, splits.offset_eq_rawEndPos]
  rfl

theorem Position.ofOffset_of_splits :
    Position.ofOffset text pos.offset.byteIdx = Position.afterAll before.toList := by
  rw [Position.ofOffset, byteIdx_of_splits splits, splits.eq_append, String.toList_append,
    takeBytes?_append]
  rfl

end Splits

theorem Position.ofOffset_lt_ofOffset {text : String} {pos pos' : text.Pos} (less : pos < pos') :
    Position.ofOffset text pos.offset.byteIdx < Position.ofOffset text pos'.offset.byteIdx := by
  obtain ⟨between, some, is, _⟩ := (pos.splits.lt_iff_exists_eq_append pos'.splits).mp less
  rw [ofOffset_of_splits pos.splits, ofOffset_of_splits pos'.splits, is, String.toList_append,
    Position.afterAll, Position.afterAll, List.foldl_append]
  exact lt_foldl_after (mt String.toList_eq_nil_iff.mp some) _

theorem Position.ofOffset_lt_ofOffset_iff {text : String} {pos pos' : text.Pos} :
    Position.ofOffset text pos.offset.byteIdx < Position.ofOffset text pos'.offset.byteIdx ↔
      pos < pos' := by
  refine ⟨fun less => ?_, Position.ofOffset_lt_ofOffset⟩
  rcases Nat.lt_trichotomy pos.offset.byteIdx pos'.offset.byteIdx with before | same | behind
  · exact before
  · rw [same] at less
    exact absurd less (lt_irrefl _)
  · exact absurd less (Position.ofOffset_lt_ofOffset behind).asymm

/-- The walk to a position ends at the offset that it is reported for, and there is none to a position
that is reported for no offset. -/
theorem Position.offset?_eq_some_iff {position : Position} {text : String} {offset : Nat} :
    position.offset? text = some offset ↔
      ∃ pos : text.Pos, pos.offset.byteIdx = offset ∧ Position.ofOffset text offset = position := by
  constructor
  · intro ends
    obtain ⟨rest, walk, rfl⟩ := Option.map_eq_some_iff.mp ends
    obtain ⟨before, parts, rfl⟩ := Position.exists_of_rest? walk
    have split : text = String.ofList before ++ String.ofList rest := by
      rw [← String.ofList_append, ← parts, String.ofList_toList]
    have splits := String.Pos.splits_ofEqAppend split
    have offset := byteIdx_of_splits splits
    have place := Position.ofOffset_of_splits splits
    rw [String.toList_ofList] at offset place
    rw [parts, byteLength_append, Nat.add_sub_cancel, ← offset]
    exact ⟨_, rfl, place⟩
  · rintro ⟨pos, rfl, rfl⟩
    have parts := congrArg String.toList pos.splits.eq_append
    rw [String.toList_append] at parts
    rw [Position.offset?, Position.ofOffset_of_splits pos.splits, parts, Position.rest?_afterAll,
      Option.map_some, byteLength_append, Nat.add_sub_cancel, byteIdx_of_splits pos.splits]

/-- **Positions identify offsets.** They come in the order of the offsets that they are reported for, the
line deciding before the column, and the walk to a position ends at an offset between characters exactly
if the position is reported for it. -/
theorem positions_identify_offsets (text : String) :
    (∀ pos pos' : text.Pos, pos < pos' ↔
      Position.ofOffset text pos.offset.byteIdx < Position.ofOffset text pos'.offset.byteIdx) ∧
    ∀ (position : Position) (offset : Nat), position.offset? text = some offset ↔
      ∃ pos : text.Pos, pos.offset.byteIdx = offset ∧ Position.ofOffset text offset = position :=
  ⟨fun _ _ => Position.ofOffset_lt_ofOffset_iff.symm, fun _ _ => Position.offset?_eq_some_iff⟩

/-- Behind a line feed and a character of two bytes. -/
example : Position.ofOffset "a\näb" 4 = ⟨2, 2⟩ ∧ (⟨2, 2⟩ : Position).offset? "a\näb" = some 4 := by decide

end SwiftBindings.Text
