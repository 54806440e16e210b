/-
**Types with operators are read as they are written.**

List brackets stand behind a type without an operator, intersections join what has list brackets, and
unions join intersections. Each level is read by the parser of its own, which stops in front of the marks
that only a weaker operator, or what is around the type, has use for.

A text that is a type as a whole is read to its end (`readType?_written`). The bound on the nesting of the
text is enough, because each type within another is shorter.
-/

import Mathlib.Logic.Function.Iterate
import SwiftBindings.Proofs.Script.WrittenLists

namespace SwiftBindings.Script

open Declared Text TypeGraph Grammar

/-! ### Types with a text behind them -/

section Append

variable {marks fewer : List String} {chars more : List Char}

/-- A type that goes on with an operator starts as before. -/
theorem Heads.append (heads : Heads marks chars)
    (follows : ∀ rest, Follows fewer rest → Follows marks (more ++ rest))
    (goesOn : more = [] ∨ ∀ rest, Follows fewer rest → Follows operators (more ++ rest) ∧
      NotAhead (more ++ rest) .finish) : Heads fewer (chars ++ more) := by
  have stops : ∀ rest stop, Follows fewer rest → Stops (more ++ rest) stop → Stops rest stop := by
    rintro rest stop after (rfl | further)
    · rcases goesOn with rfl | goesOn
      · exact .inl rfl
      · exact .inr (goesOn rest after)
    · exact .inr further
  refine ⟨fun rest after => ?_, fun depth rest after => ?_, fun depth rest after => ?_⟩
  · obtain ⟨kind, tail, is, opens, long, word⟩ := heads.starts (more ++ rest) (follows rest after)
    rw [← List.append_assoc] at is
    refine ⟨kind, tail, is, opens, ?_, fun name same => stops rest tail after (word name same)⟩
    rw [List.length_append] at long
    omega
  · have taken := heads.noFunction depth (more ++ rest) (follows rest after)
    rwa [← List.append_assoc] at taken
  · have taken := heads.pattern depth (more ++ rest) (follows rest after)
    rw [← List.append_assoc] at taken
    exact taken.mono fun _ stop held => stops rest stop after held

end Append

/-! ### List brackets -/

/-- The marks that may follow a type with its list brackets. -/
def atomMarks : List String := "&" :: "|" :: closers

/-- A type with list brackets behind it. -/
abbrev Written.IsAtom : Written → Prop := Written.IsRead postfixType atomMarks

/-- List brackets. -/
def brackets (count : Nat) : List Char := (List.replicate count ()).flatMap fun _ => ['[', ']']

/-- A type with list brackets behind it. -/
def Written.listed (inner : Written) (count : Nat) : Written :=
  ⟨inner.chars ++ brackets count, inner.ok, TypeTree.array^[count] inner.tree⟩

theorem follows_brackets (count : Nat) {rest : List Char} (follows : Follows atomMarks rest) :
    Follows (operators ++ closers) (brackets count ++ rest) := by
  cases count with
  | zero => exact follows.mono (by decide)
  | succ count => exact follows_punctuation (by decide : '[' ∈ punctuation) (by decide) _

theorem heads_listed {inner : Written} (primary : inner.IsPrimary) (count : Nat) :
    Heads atomMarks (inner.listed count).chars := by
  refine primary.heads.append (fun rest => follows_brackets count) ?_
  cases count with
  | zero => exact .inl rfl
  | succ count =>
    refine .inr fun rest _ => ?_
    have is := ahead_punctuation (by decide : '[' ∈ punctuation) (']' :: (brackets count ++ rest))
    exact ⟨follows_punctuation (by decide : '[' ∈ punctuation) (by decide) _,
      is.other TokenKind.noConfusion⟩

theorem foldl_array (count : Nat) (tree : TypeTree) :
    (List.replicate count ()).foldl (fun tree _ => .array tree) tree = TypeTree.array^[count] tree := by
  induction count generalizing tree with
  | zero => rfl
  | succ count ih => exact ih (.array tree)

/-- The token that list brackets start with, or what is behind them if there are none. -/
theorem ahead_brackets (count : Nat) {rest : List Char} (follows : Follows atomMarks rest) :
    ∃ kind tail, Ahead (brackets count ++ rest) kind tail ∧ count ≤ tail.length + 2 := by
  cases count with
  | zero =>
    obtain ⟨_, kind, tail, is, _⟩ := follows
    exact ⟨kind, tail, is, Nat.zero_le _⟩
  | succ count =>
    have text : brackets (count + 1) ++ rest = '[' :: ']' :: (brackets count ++ rest) := rfl
    rw [text]
    refine ⟨_, _, ahead_punctuation (by decide : '[' ∈ punctuation) _, ?_⟩
    have long : count ≤ (brackets count).length := by
      rw [brackets, List.length_flatMap]
      simp
      omega
    rw [List.length_cons, List.length_append]
    omega

theorem listed_isAtom {inner : Written} (primary : inner.IsPrimary) (count : Nat) :
    (inner.listed count).IsAtom := by
  refine ⟨heads_listed primary count, fun depth enough rest follows => ?_⟩
  have short : inner.chars.length ≤ depth := by
    rw [Written.listed, List.length_append] at enough
    omega
  have text : (inner.listed count).chars ++ rest = inner.chars ++ (brackets count ++ rest) :=
    List.append_assoc _ _ _
  rw [text]
  refine reads_here fun start => ?_
  obtain ⟨kind, tail, is, enough⟩ := ahead_brackets count follows
  have behind := follows_brackets count follows
  rw [← Bool.and_true (inner.listed count).ok, Written.listed, ← foldl_array]
  refine (primary.reads depth short _ behind).bind fun _ => ?_
  have all : ((List.replicate count ()).all fun _ => true) = true := List.all_eq_true.mpr fun _ _ => rfl
  refine .of_ok all (reads_iterate (fun items : List Unit => items.flatMap (fun _ => ['[', ']']) ++ rest)
    (fun _ => true) (fun tree _ => TypeTree.array tree) is ?_ ?_ ?_ inner.tree)
  · rwa [List.length_replicate]
  · intro tree _ _ others
    have open_is := ahead_punctuation (by decide : '[' ∈ punctuation)
      (']' :: (others.flatMap (fun _ => ['[', ']']) ++ rest))
    have close_is := ahead_punctuation (by decide : ']' ∈ punctuation)
      (others.flatMap (fun _ => ['[', ']']) ++ rest)
    refine (reads_atMark open_is).andThen ((reads_atLineStart open_is).andThen ?_)
    refine (reads_advance open_is).andThen ?_
    exact (reads_eatMark close_is).andThen (reads_pure _ _)
  · intro tree
    refine (reads_atMark_other (follows.not_mark (by decide))).andThen ?_
    obtain ⟨_, kind, tail, is, _⟩ := follows
    exact (reads_atLineStart is).andThen (reads_pure none rest)

/-- No operator stands in front of a type with list brackets. -/
theorem Written.IsAtom.reads_operator {written : Written} (atom : written.IsAtom) (depth : Nat)
    (enough : written.chars.length ≤ depth) {rest : List Char} (follows : Follows atomMarks rest) :
    Reads (operatorType (.ofDepth depth) false) (written.chars ++ rest) written.ok written.tree rest := by
  obtain ⟨kind, tail, is, opens, _⟩ := atom.heads.starts rest follows
  refine Reads.andThen (reads_iterate (fun _ : List Unit => written.chars ++ rest) (fun _ => true)
    (fun read _ => read) is (Nat.zero_le _) (fun _ _ member => absurd member List.not_mem_nil) ?_ [])
    (reads_here fun start => ?_)
  · intro read
    refine reads_ahead is fun token isKind _ _ => ?_
    have none : TypeOperator.ofToken? token = none := by
      rw [TypeOperator.ofToken?, isKind]
      split
      · exact absurd rfl (opensType_other opens (by decide))
      · exact absurd rfl (opensType_other opens (by decide))
      · exact absurd rfl (opensType_other opens (by decide))
      · rfl
    rw [none]
    exact reads_pure _ _
  refine (reads_eatWord_other (atom.heads.not_ahead follows (by decide))).andThen ?_
  rw [if_neg Bool.false_ne_true, ← Bool.and_true written.ok]
  exact (atom.reads depth enough rest follows).bind fun _ => reads_pure _ rest

/-! ### Operators between types -/

/-- A single one as it is, or several combined. -/
def single {ι : Type} (combine : List ι → ι) : List ι → ι
  | [one] => one
  | several => combine several

/-- Types with an operator between them. -/
def Written.joined (operator : Char) (combine : List TypeTree → TypeTree) (parts : List Written) :
    Written :=
  ⟨[' ', operator, ' '].intercalate (parts.map Written.chars), parts.all Written.ok,
    single combine (parts.map Written.tree)⟩

/-- The operators between types, as characters and as marks. -/
def typeOperators : List (Char × String) := [('|', "|"), ('&', "&")]

section Joined

variable {operator : Char} {mark : String} {marks : List String} {rest : List Char}

/-- The operators between types. -/
theorem ahead_operator (known : (operator, mark) ∈ typeOperators) (text : List Char) :
    Ahead (operator :: ' ' :: text) (.mark (mark)) (' ' :: text) := by
  simp only [typeOperators, List.mem_cons, List.not_mem_nil, or_false, Prod.mk.injEq] at known
  rcases known with ⟨rfl, rfl⟩ | ⟨rfl, rfl⟩
  · exact ahead_union text
  · exact ahead_intersection text

/-- What is behind a part. -/
theorem follows_operand (known : (operator, mark) ∈ typeOperators) (follows : Follows marks rest)
    (others : List Written) :
    Follows (mark :: marks) (behind [' ', operator, ' '] (others.map Written.chars) rest) := by
  cases others with
  | nil => exact follows.mono (List.subset_cons_self _ _)
  | cons other others =>
    rw [List.map_cons, behind_cons]
    exact follows_blank (ahead_operator known _) List.mem_cons_self

variable {parser : Grammar → Parser TypeTree} {combine : List TypeTree → TypeTree} {first : Written}
  {others : List Written}

theorem heads_joined (known : (operator, mark) ∈ typeOperators)
    (heads : Heads (mark :: marks) first.chars) (others : List Written) :
    Heads marks (Written.joined operator combine (first :: others)).chars := by
  have text : (Written.joined operator combine (first :: others)).chars =
      first.chars ++ behind [' ', operator, ' '] (others.map Written.chars) [] := by
    rw [← intercalate_append, List.append_nil]
    rfl
  have append : ∀ rest, behind [' ', operator, ' '] (others.map Written.chars) [] ++ rest =
      behind [' ', operator, ' '] (others.map Written.chars) rest := by
    intro rest
    simp [behind]
  rw [text]
  refine heads.append (fun rest follows => append rest ▸ follows_operand known follows others) ?_
  cases others with
  | nil => exact .inl rfl
  | cons other others =>
    refine .inr fun rest _ => ?_
    rw [append, List.map_cons, behind_cons]
    have member : mark ∈ operators := by
      simp only [typeOperators, List.mem_cons, List.not_mem_nil, or_false, Prod.mk.injEq] at known
      rcases known with ⟨_, rfl⟩ | ⟨_, rfl⟩ <;> decide
    exact ⟨follows_blank (ahead_operator known _) member,
      (ahead_operator known _).blank.other TokenKind.noConfusion⟩

/-- The token that the operators behind a type start with, or what is behind it if there are none. -/
theorem ahead_operand (known : (operator, mark) ∈ typeOperators) (follows : Follows marks rest)
    (others : List Written) :
    ∃ kind tail, Ahead (behind [' ', operator, ' '] (others.map Written.chars) rest) kind tail ∧
      others.length ≤ tail.length + 2 := by
  cases others with
  | nil =>
    obtain ⟨_, kind, tail, is, _⟩ := follows
    exact ⟨kind, tail, is, Nat.zero_le _⟩
  | cons other others =>
    have long := length_le_behind (List.cons_ne_nil ' ' [operator, ' ']) (others.map Written.chars) rest
    rw [List.map_cons, behind_cons, intercalate_append]
    refine ⟨_, _, (ahead_operator known _).blank, ?_⟩
    rw [List.length_map] at long
    simp only [List.length_cons, List.length_append, List.nil_append, List.append_eq]
    omega

theorem single_several {ι : Type} (combine : List ι → ι) {items : List ι} (several : items.length ≠ 1) :
    single combine items = combine items := by
  match items with
  | [] => rfl
  | [item] => exact absurd rfl several
  | _ :: _ :: _ => rfl

theorem reads_single (combine : List TypeTree → TypeTree) (read : List TypeTree) (rest : List Char) :
    Reads (match read with
      | [type] => pure type
      | _ => pure (combine read.reverse)) rest true (single combine read.reverse) rest := by
  match read with
  | [] => exact reads_pure _ rest
  | [type] => exact reads_pure _ rest
  | first :: second :: others =>
    rw [single_several combine (by simp)]
    exact reads_pure _ rest

/-- Types with an operator between them are read one after the other. -/
theorem reads_operands (known : (operator, mark) ∈ typeOperators) (apart : mark ∉ marks)
    (parts : ∀ part ∈ first :: others, part.IsRead parser (mark :: marks))
    {depth : Nat} (enough : (Written.joined operator combine (first :: others)).chars.length ≤ depth)
    (follows : Follows marks rest) :
    Reads (operands (mark) (parser (.ofDepth depth)) combine)
      ((Written.joined operator combine (first :: others)).chars ++ rest)
      (Written.joined operator combine (first :: others)).ok
      (Written.joined operator combine (first :: others)).tree rest := by
  have reads : ∀ part ∈ first :: others, ∀ others : List Written,
      let text := behind [' ', operator, ' '] (others.map Written.chars) rest
      Reads (parser (.ofDepth depth)) (part.chars ++ text) part.ok part.tree text := by
    intro part member others
    have short := length_le_intercalate [' ', operator, ' '] Written.chars member
    exact (parts part member).reads depth (Nat.le_trans short enough) _ (follows_operand known follows others)
  have text : (Written.joined operator combine (first :: others)).chars ++ rest =
      first.chars ++ behind [' ', operator, ' '] (others.map Written.chars) rest :=
    intercalate_append _ _ _ _
  have noOperator : NotAhead ((Written.joined operator combine (first :: others)).chars ++ rest)
      (.mark (mark)) := by
    refine (heads_joined known (parts first List.mem_cons_self).heads others).not_ahead follows ?_
    simp only [typeOperators, List.mem_cons, List.not_mem_nil, or_false, Prod.mk.injEq] at known
    rcases known with ⟨_, rfl⟩ | ⟨_, rfl⟩ <;> decide
  refine (reads_eatMark_other noOperator).andThen ?_
  rw [text]
  refine (reads first List.mem_cons_self others).bind fun _ => ?_
  obtain ⟨kind, tail, is, enough⟩ := ahead_operand known follows others
  have loop := reads_iterate (fun items => behind [' ', operator, ' '] (items.map Written.chars) rest)
    Written.ok (fun read part => part.tree :: read) is enough
    (fun read part member others => by
      show Reads (do
        if ← eatMark (mark) then
          return some ((← parser (.ofDepth depth)) :: read)
        else return none) (behind [' ', operator, ' '] ((part :: others).map Written.chars) rest) _ _ _
      rw [List.map_cons, behind_cons, intercalate_append]
      refine (reads_eatMark (ahead_operator known _).blank).andThen ?_
      rw [if_pos rfl, ← Bool.and_true part.ok]
      exact (reads part (List.mem_cons_of_mem _ member) others).blank.bind fun _ => reads_pure _ _)
    (fun read => (reads_eatMark_other (follows.not_mark apart)).andThen (reads_pure none rest))
    [first.tree]
  rw [← Bool.and_true (others.all Written.ok)]
  refine loop.bind fun _ => ?_
  have read : (others.foldl (fun read part => part.tree :: read) [first.tree]).reverse =
      first.tree :: others.map Written.tree := by
    rw [foldl_push, List.reverse_append, List.reverse_reverse]
    rfl
  show Reads _ rest true (single combine (first.tree :: others.map Written.tree)) rest
  rw [← read]
  exact reads_single combine _ rest

end Joined

/-! ### Intersections and unions -/

/-- An intersection of types with list brackets, or a single one. -/
def Written.clause (atoms : List Written) : Written :=
  .joined '&' .intersection atoms

/-- A union of intersections, or a single one. -/
def Written.phrase (clauses : List Written) : Written :=
  .joined '|' .union clauses

/-- A type without a union. -/
abbrev Written.IsClause : Written → Prop := Written.IsRead (intersectionType · false) ("|" :: closers)

/-- An atom is read with the operators in front of it, of which there are none. -/
theorem Written.IsAtom.isRead {written : Written} (atom : written.IsAtom) :
    written.IsRead (operatorType · false) atomMarks :=
  ⟨atom.heads, fun depth enough _ follows => atom.reads_operator depth enough follows⟩

theorem clause_isClause {atoms : List Written} (some : atoms ≠ []) (read : ∀ atom ∈ atoms, atom.IsAtom) :
    (Written.clause atoms).IsClause := by
  cases atoms with
  | nil => exact absurd rfl some
  | cons first others =>
    have known : ('&', "&") ∈ typeOperators := by decide
    exact ⟨heads_joined known (read first List.mem_cons_self).heads others,
      fun depth enough rest follows => reads_operands known (by decide)
        (fun atom member => (read atom member).isRead) enough follows⟩

/-- A union that opens neither a function nor a constructor is read as a type. -/
theorem reads_fullType {written : Written} (union : written.IsRead (unionType · false) closers)
    {depth : Nat} (enough : written.chars.length ≤ depth) {rest : List Char}
    (follows : Follows closers rest) :
    Reads (fullType (.ofDepth depth)) (written.chars ++ rest) written.ok written.tree rest := by
  obtain ⟨kind, tail, is, opens, _⟩ := union.heads.starts rest follows
  have unconditional : Reads (unconditional (.ofDepth depth) false) (written.chars ++ rest) written.ok
      written.tree rest := by
    refine reads_ahead is fun token isKind _ _ => reads_aheadAny fun next => ?_
    refine (reads_atOpeningAngle_other is (opensType_other opens rfl) (opensType_other opens rfl)).andThen ?_
    refine (union.heads.noFunction depth rest follows).andThen ?_
    have noConstructor : ∀ name, opensType (.word name) = false → token.isWord name = false := by
      intro name fails
      rw [Token.isWord, isKind]
      exact beq_false_of_ne (opensType_other opens fails)
    rw [noConstructor "new" (by decide), noConstructor "abstract" (by decide), Bool.false_and]
    exact union.reads depth enough rest follows
  obtain ⟨_, _, _, ahead, _⟩ := id follows
  refine reads_here fun start => ?_
  rw [← Bool.and_true written.ok]
  refine unconditional.bind fun _ => ?_
  refine (reads_atWord_other (follows.not_word "extends")).andThen ?_
  exact (reads_atLineStart ahead).andThen (reads_pure _ rest)

theorem phrase_isPhrase {clauses : List Written} (some : clauses ≠ [])
    (read : ∀ clause ∈ clauses, clause.IsClause) : (Written.phrase clauses).IsPhrase := by
  cases clauses with
  | nil => exact absurd rfl some
  | cons first others =>
    have known : ('|', "|") ∈ typeOperators := by decide
    have heads : Heads closers (Written.phrase (first :: others)).chars :=
      heads_joined known (read first List.mem_cons_self).heads others
    have union : (Written.phrase (first :: others)).IsRead (unionType · false) closers :=
      ⟨heads, fun depth enough rest follows => reads_operands known (by decide) read enough follows⟩
    exact ⟨heads, fun depth enough rest follows => reads_fullType union enough follows⟩

/-! ### Whole texts -/

/-- The type that a text is, if the whole text is one. -/
def readType? (chars : List Char) : Option TypeExpr :=
  match (Grammar.ofDepth (nestingBound chars)).type (.ofText chars) with
  | .ok (tree, next) => if next.token.kind = .finish then some (tree.lower chars) else none
  | .error _ => none

/-- **A text that is written as a type is read as it**, if it can be read. -/
theorem readType?_written {written : Written} (phrase : written.IsPhrase) :
    readType? written.chars =
      if written.ok then some (written.tree.lower written.chars) else none := by
  have enough : written.chars.length ≤ 4 * written.chars.length + 7 := by omega
  have reads := phrase.reads _ enough [] follows_finish (.ofText written.chars) (by
    rw [List.append_nil]
    exact ⟨0, rfl⟩)
  rw [readType?]
  show (match fullType (.ofDepth (4 * written.chars.length + 7)) (.ofText written.chars) with
    | .ok (tree, next) =>
      if next.token.kind = TokenKind.finish then some (tree.lower written.chars) else none
    | .error _ => none) = _
  cases ok : written.ok with
  | true =>
    rw [ok] at reads
    obtain ⟨next, run, offset, token⟩ := reads
    rw [run]
    dsimp only
    rw [token, (ahead_finish offset).1, if_pos rfl, if_pos rfl]
  | false =>
    rw [ok] at reads
    obtain ⟨failure, run⟩ := reads
    rw [run]
    rfl

end SwiftBindings.Script
