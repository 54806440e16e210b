/-
**Types are read as they are written.**

A written type (`Written`) is a text with the syntax tree that is read from it. Keywords, literals, tuples,
object types and types in parentheses are written without an operator; list brackets, `&` and `|` go
around them, each binding weaker than the one before. Each of the four forms is read by its own parser,
in front of the tokens that may follow it (`Written.IsRead`), and a form is read if its parts are.

A parenthesis could open the parameters of a function as well, and a reader looks ahead for those. It
finds none: what it takes for a parameter stops where a type goes on or ends (`Heads`).
-/

import SwiftBindings.Proofs.Script.ParserRuns
import SwiftBindings.Script.Module

namespace SwiftBindings.Script

open Declared Text TypeGraph Grammar

variable {α β : Type}

/-! ### What follows a type -/

/-- The text starts with one of the marks, or is at its end, and a word ends in front of it. -/
def Follows (marks : List String) (text : List Char) : Prop :=
  EndsWord text ∧ ∃ kind tail, Ahead text kind tail ∧ (kind = .finish ∨ ∃ mark ∈ marks, kind = .mark mark)

/-- The marks that end a type. -/
def closers : List String := ["]", ")", ",", ";", "\x7d"]

/-- The marks that go on with a type after a part of it. -/
def operators : List String := ["[", "&", "|"]

section Follows

variable {marks : List String} {text : List Char}

theorem Follows.not_mark (follows : Follows marks text) {mark : String} (other : mark ∉ marks) :
    NotAhead text (.mark mark) := by
  obtain ⟨_, kind, tail, is, rfl | ⟨own, member, rfl⟩⟩ := follows
  · exact is.other TokenKind.noConfusion
  · refine is.other fun same => other ?_
    rw [← TokenKind.mark.inj same]
    exact member

theorem Follows.not_word (follows : Follows marks text) (name : String) :
    NotAhead text (.word name) := by
  obtain ⟨_, kind, tail, is, rfl | ⟨own, member, rfl⟩⟩ := follows
  · exact is.other TokenKind.noConfusion
  · exact is.other TokenKind.noConfusion

theorem Follows.mono {more : List String} (follows : Follows marks text) (among : marks ⊆ more) :
    Follows more text := by
  obtain ⟨ends, kind, tail, is, finish | ⟨mark, member, same⟩⟩ := follows
  · exact ⟨ends, kind, tail, is, .inl finish⟩
  · exact ⟨ends, kind, tail, is, .inr ⟨mark, among member, same⟩⟩

theorem follows_mark {c : Char} {mark : String} {tail rest : List Char}
    (ends : isIdentifierPart c = false ∧ c ≠ '\\') (is : Ahead (c :: rest) (.mark mark) tail)
    (member : mark ∈ marks) : Follows marks (c :: rest) := by
  refine ⟨fun other held => ?_, _, _, is, .inr ⟨mark, member, rfl⟩⟩
  cases held
  exact ends

theorem follows_punctuation {c : Char} (member : c ∈ punctuation) (among : String.singleton c ∈ marks)
    (rest : List Char) : Follows marks (c :: rest) := by
  refine follows_mark ?_ (ahead_punctuation member rest) among
  simp only [punctuation, List.mem_cons, List.not_mem_nil, or_false] at member
  rcases member with rfl | rfl | rfl | rfl | rfl | rfl | rfl | rfl | rfl <;> decide

theorem follows_blank {mark : String} {tail : List Char} (is : Ahead text (.mark mark) tail)
    (member : mark ∈ marks) : Follows marks (' ' :: text) :=
  follows_mark (by decide) is.blank member

theorem follows_finish : Follows marks [] :=
  ⟨fun _ held => (by cases held), _, _, ahead_finish, .inl rfl⟩

end Follows

/-! ### How types start -/

/-- The token opens a type. -/
def opensType : TokenKind → Bool
  | .word name => (Keyword.ofText? name).isSome
  | .string _ => true
  | .invalid => true
  | .mark text => text ∈ ["(", "[", "\x7b"]
  | _ => false

/-- The text stops where the rest does, or goes on with a type. -/
def Stops (rest stop : List Char) : Prop :=
  stop = rest ∨ Follows operators stop ∧ NotAhead stop .finish

/-- In front of whatever follows the type, its text starts with a token of a type, and a reader that
takes the text for a parameter stops behind a part of it. -/
structure Heads (marks : List String) (chars : List Char) : Prop where
  /-- The first token, and what is behind a first word. -/
  starts : ∀ rest, Follows marks rest → ∃ kind tail, Ahead (chars ++ rest) kind tail ∧
    opensType kind = true ∧ rest.length ≤ tail.length ∧ ∀ name, kind = .word name → Stops rest tail
  /-- The text is not taken for the parameters of a function. -/
  noFunction : ∀ depth rest, Follows marks rest →
    Reads (startsFunction (.ofDepth depth)) (chars ++ rest) true false (chars ++ rest)
  /-- What is taken for a pattern. -/
  pattern : ∀ depth rest, Follows marks rest →
    Leaves (bindingPattern (.ofDepth depth)) (chars ++ rest) fun _ stop => Stops rest stop

/-- A type with its text, and the syntax tree that is read from it if it can be read. -/
structure Written where
  /-- The text. -/
  chars : List Char
  /-- The text can be read. -/
  ok : Bool
  /-- The syntax tree. -/
  tree : TypeTree

/-- In front of the marks that may follow it, the type is read by the parser. -/
structure Written.IsRead (parser : Grammar → Parser TypeTree) (marks : List String) (written : Written) :
    Prop where
  /-- How the text starts. -/
  heads : Heads marks written.chars
  /-- The text is read as the syntax tree. -/
  reads : ∀ depth, written.chars.length ≤ depth → ∀ rest, Follows marks rest →
    Reads (parser (.ofDepth depth)) (written.chars ++ rest) written.ok written.tree rest

/-- A type without an operator. -/
abbrev Written.IsPrimary : Written → Prop := Written.IsRead primaryType (operators ++ closers)

/-! ### Keywords and literals -/

section Words

variable {marks : List String} {rest : List Char}

/-- A keyword. -/
def Written.keyword (keyword : Keyword) : Written :=
  ⟨keyword.text.toList, true, .keyword keyword⟩

theorem reads_not_function {g : Grammar} {text : List Char} (other : NotAhead text (.mark "(")) :
    Reads (startsFunction g) text true false text :=
  reads_foresee_not ((fails_expectMark other).bind.leaves _)

theorem heads_keyword (keyword : Keyword) : Heads marks (Written.keyword keyword).chars := by
  have is : ∀ rest, Follows marks rest → Ahead (keyword.text.toList ++ rest) (.word keyword.text) rest :=
    fun rest follows => ahead_word (isIdentifierName_keyword keyword) follows.1
  refine ⟨fun rest follows => ?_, fun depth rest follows => ?_, fun depth rest follows => ?_⟩
  · refine ⟨_, _, is rest follows, ?_, Nat.le_refl _, fun _ _ => .inl rfl⟩
    cases keyword <;> decide
  · exact reads_not_function ((is rest follows).other TokenKind.noConfusion)
  · refine leaves_ahead (is rest follows) fun token isKind => ?_
    rw [isKind]
    refine Leaves.bind ?_ fun name middle stops => leaves_pure stops
    refine leaves_ahead (is rest follows) fun token isKind => ?_
    split
    · exact (reads_anyWord (is rest follows)).leaves fun _ => .inl rfl
    · exact (fails_unexpected _).leaves _

theorem reads_keyword (g : Grammar) (keyword : Keyword) (follows : Follows marks rest)
    (noPoint : "." ∉ marks) :
    Reads (primaryType g) (keyword.text.toList ++ rest) true (.keyword keyword) rest := by
  have word := ahead_word (isIdentifierName_keyword keyword) follows.1
  have other := follows.not_mark noPoint
  obtain ⟨_, kind, tail, is, _⟩ := follows
  have named : Reads (wordType g keyword.text) (keyword.text.toList ++ rest) true (.keyword keyword)
      rest := by
    refine reads_ahead word fun token isKind _ _ => ?_
    refine reads_aheadTwo word is fun next isNext => ?_
    have asserts : keyword.text ≠ "asserts" := by cases keyword <;> decide
    have point : next.isMark "." = false := by
      rw [Token.isMark, isNext]
      exact beq_false_of_ne fun same => other 0 ((is 0).1.trans same)
    have found : Keyword.ofText? keyword.text = some keyword := by cases keyword <;> decide
    simp only [asserts, point, found]
    exact (reads_advance word).andThen (reads_pure _ rest)
  refine reads_ahead word fun token isKind _ _ => ?_
  cases keyword <;>
    simpa [isKind, Keyword.text, Token.isIdentifier, reservedWords, reservedTypeNames] using named

theorem keyword_isPrimary (keyword : Keyword) : (Written.keyword keyword).IsPrimary :=
  ⟨heads_keyword keyword, fun _ _ _ follows => reads_keyword _ keyword follows (by decide)⟩

/-- A string literal. -/
def Written.literal (value : String) : Written :=
  ⟨(literalText value).toList, isReadable value.toList, .stringLiteral value⟩

/-- A text whose first token is no word and opens no bracket is taken neither for a function nor for a
pattern. -/
theorem leaves_pattern_other {g : Grammar} {text tail : List Char} {kind : TokenKind}
    (is : Ahead text kind tail) (noWord : ∀ name, kind ≠ .word name) (noBrace : kind ≠ .mark "\x7b")
    (noBracket : kind ≠ .mark "[") (condition : Option String → List Char → Prop) :
    Leaves (bindingPattern g) text condition := by
  have noName : Fails identifier text := fails_ahead is fun token isKind => by
    have other : token.isIdentifier = false := by
      rw [Token.isIdentifier, isKind]
      cases kind with
      | word name => exact absurd rfl (noWord name)
      | _ => rfl
    rw [other]
    exact fails_unexpected text
  refine leaves_ahead is fun token isKind => ?_
  rw [isKind]
  split
  · exact absurd rfl noBrace
  · exact absurd rfl noBracket
  · exact noName.bind.leaves _

theorem literal_isPrimary (value : String) : (Written.literal value).IsPrimary := by
  have is : ∀ rest, Ahead ((Written.literal value).chars ++ rest)
      (if isReadable value.toList then .string value else .invalid)
      (if isReadable value.toList then rest else value.toList.flatMap quoteChar ++ '"' :: rest) := by
    dsimp only [Written.literal]
    exact ahead_literal value
  refine ⟨⟨fun rest _ => ?_, fun depth rest _ => ?_, fun depth rest _ => ?_⟩, fun depth _ rest _ => ?_⟩
  · refine ⟨_, _, is rest, ?_, ?_, fun name => ?_⟩
    · split <;> rfl
    · split
      · exact Nat.le_refl _
      · rw [List.length_append, List.length_cons]
        omega
    · split <;> exact fun same => absurd same TokenKind.noConfusion
  · refine reads_not_function ((is rest).other ?_)
    split <;> exact TokenKind.noConfusion
  · refine leaves_pattern_other (is rest) (fun name => ?_) ?_ ?_ _ <;> split <;>
      exact TokenKind.noConfusion
  · have is := is rest
    rw [Written.literal] at is ⊢
    cases readable : isReadable value.toList with
    | true =>
      rw [readable, if_pos rfl, if_pos rfl] at is
      refine reads_ahead is fun token isKind _ _ => ?_
      rw [isKind]
      exact (reads_advance is).andThen (reads_pure _ rest)
    | false =>
      rw [readable, if_neg Bool.false_ne_true, if_neg Bool.false_ne_true] at is
      refine reads_ahead is fun token isKind _ _ => ?_
      rw [isKind]
      exact (fails_unexpected _).reads _ rest

end Words

/-! ### Types in parentheses -/

/-- A type with all its operators. -/
abbrev Written.IsPhrase : Written → Prop := Written.IsRead fullType closers

section Grouped

variable {marks : List String} {chars rest stop : List Char}

theorem opensType_other {kind other : TokenKind} (opens : opensType kind = true)
    (fails : opensType other = false) : kind ≠ other := by
  rintro rfl
  exact Bool.false_ne_true (fails.symm.trans opens)

/-- A type does not start with a token that opens none. -/
theorem Heads.not_ahead (heads : Heads marks chars) (follows : Follows marks rest) {kind : TokenKind}
    (fails : opensType kind = false) : NotAhead (chars ++ rest) kind := by
  obtain ⟨_, _, is, opens, _⟩ := heads.starts rest follows
  exact is.other (opensType_other opens fails)

/-- Where a reader stops, no mark is ahead that neither goes on with a type nor follows it. -/
theorem Stops.not_mark (stops : Stops rest stop) {mark : String} (operator : mark ∉ operators)
    (after : NotAhead rest (.mark mark)) : NotAhead stop (.mark mark) := by
  rcases stops with rfl | ⟨follows, _⟩
  · exact after
  · exact follows.not_mark operator

theorem reads_eatModifier_other {words : List String} {text tail : List Char} {kind : TokenKind}
    (is : Ahead text kind tail) (other : ∀ name, kind = .word name → name ∉ words) :
    Reads (eatModifier words) text true false text := by
  refine reads_ahead is fun token isKind _ _ => ?_
  rw [isKind]
  cases kind with
  | word name =>
    refine reads_aheadAny fun next => ?_
    have absent := other name rfl
    simp only [absent, decide_false, Bool.false_and]
    exact reads_pure false text
  | _ => exact reads_pure false text

theorem heads_noModifier (heads : Heads marks chars) (follows : Follows marks rest)
    {words : List String} (noType : ∀ name ∈ words, opensType (.word name) = false) :
    Reads (eatModifier words) (chars ++ rest) true false (chars ++ rest) := by
  obtain ⟨_, _, is, opens, _⟩ := heads.starts rest follows
  exact reads_eatModifier_other is fun name same member =>
    opensType_other opens (noType name member) same

theorem leaves_pattern (heads : Heads marks chars) (follows : Follows marks rest) (depth : Nat) :
    Leaves (Grammar.ofDepth depth).pattern (chars ++ rest) fun _ stop => Stops rest stop := by
  cases depth with
  | zero => exact (fails_unexpected _).leaves _
  | succ depth => exact heads.pattern depth rest follows

/-- A type in parentheses. -/
def Written.group (inner : Written) : Written :=
  ⟨'(' :: (inner.chars ++ [')']), inner.ok, inner.tree⟩

/-- A type in parentheses is not taken for the parameters of a function: what is taken for the first
parameter stops in front of an operator, or of the parenthesis and no arrow behind it. -/
theorem reads_group_noFunction (heads : Heads closers chars) (depth : Nat)
    (follows : Follows (operators ++ closers) rest) :
    Reads (startsFunction (.ofDepth depth)) ('(' :: (chars ++ ')' :: rest)) true false
      ('(' :: (chars ++ ')' :: rest)) := by
  have closes := ahead_punctuation (by decide : ')' ∈ punctuation) rest
  have inside : Follows closers (')' :: rest) :=
    follows_punctuation (by decide) (by decide) rest
  refine reads_foresee_not ?_
  refine (reads_expectMark (ahead_punctuation (by decide : '(' ∈ punctuation) _)).andLeaves ?_
  refine (reads_atMark_other (heads.not_ahead inside rfl)).andLeaves ?_
  refine (reads_atMark_other (heads.not_ahead inside rfl)).andLeaves ?_
  refine (heads_noModifier heads inside (by decide)).andLeaves ?_
  obtain ⟨kind, tail, is, opens, _, word⟩ := heads.starts _ inside
  have behind : ∀ stop, Stops (')' :: rest) stop → Leaves (do
      if (← atMark ":") || (← atMark ",") || (← atMark "?") || (← atMark "=") then return true
      if ← eatMark ")" then atMark "=>" else return false : Parser Bool) stop
        fun answer _ => answer = false := by
    intro stop stops
    have other : ∀ mark, mark ∉ operators → mark ≠ ")" → NotAhead stop (.mark mark) :=
      fun mark operator apart => stops.not_mark operator
        (closes.other fun same => apart (TokenKind.mark.inj same).symm)
    refine (reads_atMark_other (other ":" (by decide) (by decide))).andLeaves ?_
    refine (reads_atMark_other (other "," (by decide) (by decide))).andLeaves ?_
    refine (reads_atMark_other (other "?" (by decide) (by decide))).andLeaves ?_
    refine (reads_atMark_other (other "=" (by decide) (by decide))).andLeaves ?_
    rcases stops with rfl | ⟨goesOn, _⟩
    · refine (reads_eatMark closes).andLeaves ?_
      exact (reads_atMark_other (follows.not_mark (by decide))).leaves fun _ => rfl
    · refine (reads_eatMark_other (goesOn.not_mark (by decide))).andLeaves ?_
      exact leaves_pure rfl
  refine leaves_ahead is fun token isKind => ?_
  cases isWord : token.isAnyWord with
  | true =>
    rw [if_pos rfl]
    refine (reads_advance is).andLeaves (behind tail ?_)
    cases kind with
    | word name => exact word name rfl
    | _ =>
      rw [Token.isAnyWord, isKind] at isWord
      cases isWord
  | false =>
    rw [if_neg Bool.false_ne_true]
    dsimp only
    split
    · exact (leaves_pattern heads inside depth).bind fun _ stop stops => behind stop stops
    · exact (fails_unexpected _).bind.leaves _

theorem Written.IsPhrase.group {inner : Written} (phrase : inner.IsPhrase) : inner.group.IsPrimary := by
  have text : ∀ rest, inner.group.chars ++ rest = '(' :: (inner.chars ++ ')' :: rest) := by
    intro rest
    simp [Written.group]
  have is : ∀ rest, Ahead (inner.group.chars ++ rest) (.mark "(") (inner.chars ++ ')' :: rest) :=
    fun rest => text rest ▸ ahead_punctuation (by decide : '(' ∈ punctuation) _
  refine ⟨⟨fun rest follows => ?_, fun depth rest follows => ?_, fun depth rest _ => ?_⟩,
    fun depth enough rest _ => ?_⟩
  · refine ⟨_, _, is rest, rfl, ?_, fun _ same => absurd same TokenKind.noConfusion⟩
    rw [List.length_append, List.length_cons]
    omega
  · rw [text]
    exact reads_group_noFunction phrase.heads depth follows
  · exact leaves_pattern_other (is rest) (fun _ => TokenKind.noConfusion) (by decide) (by decide) _
  · have shorter : inner.chars.length + 2 ≤ depth := by
      have length : inner.group.chars.length = inner.chars.length + 2 := by simp [Written.group]
      omega
    obtain ⟨depth, rfl⟩ : ∃ less, depth = less + 1 := ⟨depth - 1, by omega⟩
    have inside : Follows closers (')' :: rest) :=
      follows_punctuation (by decide) (by decide) rest
    refine reads_ahead (is rest) fun token isKind _ _ => ?_
    rw [isKind]
    refine (reads_advance (is rest)).andThen ?_
    rw [← Bool.and_true inner.group.ok]
    refine (phrase.reads depth (by omega) _ inside).bind fun _ => ?_
    have closes := ahead_punctuation (by decide : ')' ∈ punctuation) rest
    exact (reads_expectMark closes).andThen (reads_pure _ rest)

end Grouped

end SwiftBindings.Script
