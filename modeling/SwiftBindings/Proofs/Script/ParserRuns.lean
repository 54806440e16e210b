/-
**What parsers do in front of a text.**

`Reads parser text ok value rest` says that in front of a text, wherever it stands, the parser reads a
value and stops in front of the rest, or fails if `ok` is false. Parsers are composed of the ones for
single tokens, whose runs follow from the token ahead; runs of composed parsers are composed of theirs
(`Reads.bind`). A loop reads as many items as there are (`reads_iterate`).

Where a parser looks further ahead than is known of the text, `Leaves` says what is so if it succeeds.
-/

import SwiftBindings.Proofs.Script.TokensAhead

namespace SwiftBindings.Script

variable {α β : Type}

/-! ### Places in a text -/

/-- The cursor is in front of the text. -/
def Cursor.At (cursor : Cursor) (text : List Char) : Prop :=
  ∃ offset, cursor.token = nextToken text offset

/-- Blanks are skipped. -/
theorem Cursor.At.blank {cursor : Cursor} {text : List Char} (place : cursor.At (' ' :: text)) :
    cursor.At text := by
  obtain ⟨offset, token⟩ := place
  exact ⟨offset + 1, token⟩

/-- The text does not start with a token of the kind. -/
def NotAhead (text : List Char) (kind : TokenKind) : Prop :=
  ∀ offset, (nextToken text offset).kind ≠ kind

theorem Ahead.other {text tail : List Char} {kind other : TokenKind} (is : Ahead text kind tail)
    (apart : kind ≠ other) : NotAhead text other :=
  fun offset => (is offset).1 ▸ apart

/-! ### Runs -/

/-- In front of the text the parser fails. -/
def Fails (parser : Parser α) (text : List Char) : Prop :=
  ∀ cursor : Cursor, cursor.At text → ∃ failure, parser cursor = .error failure

/-- In front of the text the parser reads the value and stops in front of the rest, or fails if `ok` is
false. -/
def Reads (parser : Parser α) (text : List Char) (ok : Bool) (value : α) (rest : List Char) : Prop :=
  ∀ cursor : Cursor, cursor.At text →
    if ok then ∃ next, parser cursor = .ok (value, next) ∧ next.At rest
    else ∃ failure, parser cursor = .error failure

section Runs

variable {parser : Parser α} {text rest middle : List Char} {ok : Bool} {value : α}

theorem reads_pure (value : α) (text : List Char) :
    Reads (pure value) text true value text :=
  fun cursor place => ⟨cursor, rfl, place⟩

theorem fails_unexpected (text : List Char) : Fails (unexpected : Parser α) text :=
  fun _ _ => ⟨_, rfl⟩

theorem Fails.reads (fails : Fails parser text) (value : α) (rest : List Char) :
    Reads parser text false value rest :=
  fails

/-- A parser that fails, whatever would be run then. -/
theorem Fails.bind {next : α → Parser β} (first : Fails parser text) :
    Fails (parser >>= next) text := by
  intro cursor place
  obtain ⟨failure, fails⟩ := first cursor place
  refine ⟨failure, ?_⟩
  show (parser cursor >>= fun result => next result.1 result.2) = _
  rw [fails]
  rfl

/-- **Runs are composed.** The second parser is run if the first one succeeds. -/
theorem Reads.bind {next : α → Parser β} {further : Bool} {result : β}
    (first : Reads parser text ok value middle)
    (second : ok = true → Reads (next value) middle further result rest) :
    Reads (parser >>= next) text (ok && further) result rest := by
  cases ok with
  | false => exact Fails.bind first
  | true =>
    intro cursor place
    obtain ⟨between, reads, between_at⟩ := first cursor place
    have same : (parser >>= next) cursor = next value between := by
      show (parser cursor >>= fun result => next result.1 result.2) = _
      rw [reads]
      rfl
    rw [Bool.true_and, same]
    exact second rfl between between_at

/-- A parser that succeeds, and what is run then. -/
theorem Reads.andThen {next : α → Parser β} {result : β} (first : Reads parser text true value middle)
    (second : Reads (next value) middle ok result rest) :
    Reads (parser >>= next) text ok result rest :=
  first.bind fun _ => second

/-- A parser that succeeds, and one that fails then. -/
theorem Reads.andFails {next : α → Parser β} (first : Reads parser text true value middle)
    (second : Fails (next value) middle) : Fails (parser >>= next) text := by
  intro cursor place
  obtain ⟨between, reads, between_at⟩ := first cursor place
  obtain ⟨failure, fails⟩ := second between between_at
  refine ⟨failure, ?_⟩
  show (parser cursor >>= fun result => next result.1 result.2) = _
  rw [reads]
  exact fails

theorem Reads.of_ok {other : Bool} (same : ok = other) (reads : Reads parser text ok value rest) :
    Reads parser text other value rest :=
  same ▸ reads

theorem Reads.blank (reads : Reads parser text ok value rest) :
    Reads parser (' ' :: text) ok value rest :=
  fun cursor place => reads cursor place.blank

theorem Reads.unblank (reads : Reads parser text ok value (' ' :: rest)) :
    Reads parser text ok value rest := by
  intro cursor place
  have run := reads cursor place
  cases ok with
  | false => exact run
  | true =>
    obtain ⟨next, reads, next_at⟩ := run
    exact ⟨next, reads, next_at.blank⟩

end Runs

/-! ### Tokens -/

section Tokens

variable {text tail rest : List Char} {kind : TokenKind} {ok : Bool} {value : β}

/-- A parser that looks at the token ahead. -/
theorem reads_ahead {next : Token → Parser β} (is : Ahead text kind tail)
    (goesOn : ∀ token : Token, token.kind = kind → token.lineBreak = false → token.rest = tail →
      Reads (next token) text ok value rest) :
    Reads (ahead >>= next) text ok value rest := by
  intro cursor place
  obtain ⟨offset, token⟩ := place
  obtain ⟨isKind, sameLine, isTail⟩ := is offset
  rw [← token] at isKind sameLine isTail
  exact goesOn cursor.token isKind sameLine isTail cursor ⟨offset, token⟩

theorem fails_ahead {next : Token → Parser β} (is : Ahead text kind tail)
    (fails : ∀ token : Token, token.kind = kind → Fails (next token) text) :
    Fails (ahead >>= next) text := by
  intro cursor place
  obtain ⟨offset, token⟩ := place
  have isKind := (is offset).1
  rw [← token] at isKind
  exact fails cursor.token isKind cursor ⟨offset, token⟩

/-- A parser that looks at the two tokens ahead. -/
theorem reads_aheadTwo {next : Token → Parser β} {after : TokenKind} {others : List Char}
    (is : Ahead text kind tail) (then_is : Ahead tail after others)
    (goesOn : ∀ token : Token, token.kind = after → Reads (next token) text ok value rest) :
    Reads (aheadTwo >>= next) text ok value rest := by
  intro cursor place
  obtain ⟨offset, token⟩ := place
  have isTail := (is offset).2.2
  rw [← token] at isTail
  refine goesOn (nextToken cursor.token.rest cursor.token.stop) ?_ cursor ⟨offset, token⟩
  rw [isTail]
  exact (then_is _).1

/-- A parser that gets the second token ahead, but does not need to know what it is. -/
theorem reads_aheadAny {next : Token → Parser β}
    (goesOn : ∀ token : Token, Reads (next token) text ok value rest) :
    Reads (aheadTwo >>= next) text ok value rest :=
  fun cursor place => goesOn _ cursor place

/-- A parser that gets the offset of the token ahead. -/
theorem reads_here {next : Nat → Parser β}
    (goesOn : ∀ offset : Nat, Reads (next offset) text ok value rest) :
    Reads (here >>= next) text ok value rest :=
  fun cursor place => goesOn _ cursor place

theorem reads_advance (is : Ahead text kind tail) : Reads advance text true () tail := by
  intro cursor place
  obtain ⟨offset, token⟩ := place
  refine ⟨_, rfl, ⟨cursor.token.stop, ?_⟩⟩
  have isTail := (is offset).2.2
  rw [← token] at isTail
  rw [← isTail]

theorem reads_atMark {mark : String} (is : Ahead text (.mark mark) tail) :
    Reads (atMark mark) text true true text :=
  reads_ahead is fun token isKind _ _ => by
    rw [Token.isMark, isKind, beq_self_eq_true]
    exact reads_pure true text

theorem reads_atMark_other {mark : String} (apart : NotAhead text (.mark mark)) :
    Reads (atMark mark) text true false text := by
  intro cursor place
  obtain ⟨offset, token⟩ := place
  refine ⟨cursor, ?_, ⟨offset, token⟩⟩
  have isOther := apart offset
  rw [← token] at isOther
  show Except.ok (cursor.token.isMark mark, cursor) = _
  rw [Token.isMark, beq_false_of_ne isOther]

theorem reads_atWord_other {name : String} (apart : NotAhead text (.word name)) :
    Reads (atWord name) text true false text := by
  intro cursor place
  obtain ⟨offset, token⟩ := place
  refine ⟨cursor, ?_, ⟨offset, token⟩⟩
  have isOther := apart offset
  rw [← token] at isOther
  show Except.ok (cursor.token.isWord name, cursor) = _
  rw [Token.isWord, beq_false_of_ne isOther]

theorem reads_atLineStart (is : Ahead text kind tail) :
    Reads atLineStart text true false text :=
  reads_ahead is fun token _ sameLine _ => by
    rw [sameLine]
    exact reads_pure false text

theorem reads_eatMark {mark : String} (is : Ahead text (.mark mark) tail) :
    Reads (eatMark mark) text true true tail :=
  (reads_atMark is).andThen ((reads_advance is).andThen (reads_pure true tail))

theorem reads_eatMark_other {mark : String} (apart : NotAhead text (.mark mark)) :
    Reads (eatMark mark) text true false text :=
  (reads_atMark_other apart).andThen (reads_pure false text)

theorem reads_eatWord_other {name : String} (apart : NotAhead text (.word name)) :
    Reads (eatWord name) text true false text :=
  (reads_atWord_other apart).andThen (reads_pure false text)

theorem reads_eatWord {name : String} (is : Ahead text (.word name) tail) :
    Reads (eatWord name) text true true tail := by
  have here : Reads (atWord name) text true true text := reads_ahead is fun token isKind _ _ => by
    rw [Token.isWord, isKind, beq_self_eq_true]
    exact reads_pure true text
  exact here.andThen ((reads_advance is).andThen (reads_pure true tail))

theorem reads_atOpeningAngle_other (is : Ahead text kind tail) (single : kind ≠ .mark "<")
    (double : kind ≠ .mark "<<") : Reads atOpeningAngle text true false text :=
  reads_ahead is fun token isKind _ _ => by
    rw [Token.isMark, Token.isMark, isKind, beq_false_of_ne single, beq_false_of_ne double]
    exact reads_pure false text

theorem reads_expectMark {mark : String} (is : Ahead text (.mark mark) tail) :
    Reads (expectMark mark) text true () tail :=
  (reads_eatMark is).andThen (reads_pure () tail)

theorem fails_expectMark {mark : String} (apart : NotAhead text (.mark mark)) :
    Fails (expectMark mark) text :=
  (reads_eatMark_other apart).andFails (fails_unexpected text)

theorem fails_expectWord {name : String} (apart : NotAhead text (.word name)) :
    Fails (expectWord name) text :=
  (reads_eatWord_other apart).andFails (fails_unexpected text)

theorem fails_anyWord (is : Ahead text kind tail) (other : ∀ name, kind ≠ .word name) :
    Fails anyWord text :=
  fails_ahead is fun token isKind => by
    rw [isKind]
    cases kind with
    | word name => exact absurd rfl (other name)
    | _ => exact fails_unexpected text

theorem reads_anyWord {name : String} (is : Ahead text (.word name) tail) :
    Reads anyWord text true name tail :=
  reads_ahead is fun token isKind _ _ => by
    rw [isKind]
    exact (reads_advance is).andThen (reads_pure name tail)

end Tokens

/-! ### Looking ahead -/

section Looking

variable {parser : Parser α} {text rest : List Char} {value : α}

theorem reads_attempt_fails (fails : Fails parser text) :
    Reads (attempt parser) text true none text := by
  intro cursor place
  obtain ⟨failure, fails⟩ := fails cursor place
  refine ⟨cursor, ?_, place⟩
  rw [attempt, fails]

/-- If the parser succeeds, it stops as the condition says. -/
def Leaves (parser : Parser α) (text : List Char) (condition : α → List Char → Prop) : Prop :=
  ∀ cursor : Cursor, cursor.At text → ∀ value next, parser cursor = .ok (value, next) →
    ∃ rest, next.At rest ∧ condition value rest

theorem Reads.leaves {ok : Bool} (reads : Reads parser text ok value rest)
    {condition : α → List Char → Prop} (holds : ok = true → condition value rest) :
    Leaves parser text condition := by
  intro cursor place result next run
  have reads := reads cursor place
  cases ok with
  | false =>
    obtain ⟨failure, fails⟩ := reads
    cases fails.symm.trans run
  | true =>
    obtain ⟨after, reads, place⟩ := reads
    cases reads.symm.trans run
    exact ⟨rest, place, holds rfl⟩

theorem Leaves.bind {next : α → Parser β} {condition : α → List Char → Prop}
    {further : β → List Char → Prop} (first : Leaves parser text condition)
    (second : ∀ value middle, condition value middle → Leaves (next value) middle further) :
    Leaves (parser >>= next) text further := by
  intro cursor place result last run
  change (parser cursor >>= fun result => next result.1 result.2) = _ at run
  cases begins : parser cursor with
  | error failure =>
    rw [begins] at run
    cases run
  | ok pair =>
    rw [begins] at run
    obtain ⟨middle, place, holds⟩ := first cursor place pair.1 pair.2 begins
    exact second pair.1 middle holds pair.2 place result last run

/-- A parser that succeeds, and how the next one stops. -/
theorem Reads.andLeaves {next : α → Parser β} {middle : List Char}
    {further : β → List Char → Prop} (first : Reads parser text true value middle)
    (second : Leaves (next value) middle further) : Leaves (parser >>= next) text further :=
  have here : Leaves parser text fun result stop => result = value ∧ stop = middle :=
    first.leaves fun _ => ⟨rfl, rfl⟩
  here.bind fun _ _ ⟨same, stops⟩ => same ▸ stops ▸ second

theorem Fails.leaves (fails : Fails parser text) (condition : α → List Char → Prop) :
    Leaves parser text condition := by
  intro cursor place result next run
  obtain ⟨failure, fails⟩ := fails cursor place
  cases fails.symm.trans run

theorem leaves_pure {condition : α → List Char → Prop} (holds : condition value text) :
    Leaves (pure value) text condition :=
  (reads_pure value text).leaves fun _ => holds

/-- A parser that looks at the token ahead. -/
theorem leaves_ahead {next : Token → Parser β} {kind : TokenKind} {tail : List Char}
    {further : β → List Char → Prop} (is : Ahead text kind tail)
    (goesOn : ∀ token : Token, token.kind = kind → Leaves (next token) text further) :
    Leaves (ahead >>= next) text further := by
  intro cursor place
  obtain ⟨offset, token⟩ := place
  have isKind := (is offset).1
  rw [← token] at isKind
  exact goesOn cursor.token isKind cursor ⟨offset, token⟩

/-- A parser that looks at the token ahead, whatever it is. -/
theorem leaves_aheadAny {next : Token → Parser β} {further : β → List Char → Prop}
    (goesOn : ∀ token : Token, Leaves (next token) text further) :
    Leaves (ahead >>= next) text further :=
  fun cursor place => goesOn cursor.token cursor place

theorem Leaves.mono {condition weaker : α → List Char → Prop} (leaves : Leaves parser text condition)
    (implies : ∀ value rest, condition value rest → weaker value rest) :
    Leaves parser text weaker := by
  intro cursor place result next run
  obtain ⟨rest, place, holds⟩ := leaves cursor place result next run
  exact ⟨rest, place, implies _ _ holds⟩

/-- What is looked for is not there. -/
theorem reads_foresee_not {parser : Parser Bool}
    (denies : Leaves parser text fun answer _ => answer = false) :
    Reads (foresee parser) text true false text := by
  intro cursor place
  refine ⟨cursor, ?_, place⟩
  rw [foresee]
  cases run : parser cursor with
  | error failure => rfl
  | ok pair =>
    obtain ⟨_, _, no⟩ := denies cursor place pair.1 pair.2 run
    rw [← no]

end Looking

/-! ### Loops -/

section Loops

variable {rest tail : List Char} {kind : TokenKind} {items : List β}

/-- A loop reads items one after the other, if it may make so many steps. -/
theorem reads_iterateUpTo {step : α → Parser (Option α)} (textOf : List β → List Char)
    (okOf : β → Bool) (push : α → β → α)
    (goesOn : ∀ value, ∀ item ∈ items, ∀ others,
      Reads (step value) (textOf (item :: others)) (okOf item) (some (push value item)) (textOf others))
    (ends : ∀ value, Reads (step value) (textOf []) true none (textOf []))
    {count : Nat} (enough : items.length ≤ count) (value : α) :
    Reads (iterateUpTo step count value) (textOf items) (items.all okOf) (items.foldl push value)
      (textOf []) := by
  induction items generalizing count value with
  | nil =>
    cases count with
    | zero => exact reads_pure value _
    | succ count => exact (ends value).andThen (reads_pure value _)
  | cons item others ih =>
    obtain ⟨count, rfl⟩ : ∃ fewer, count = fewer + 1 := ⟨count - 1, by
      rw [List.length_cons] at enough
      omega⟩
    refine (goesOn value item List.mem_cons_self others).bind fun _ => ?_
    exact ih (fun value item member => goesOn value item (List.mem_cons_of_mem _ member))
      (Nat.le_of_succ_le_succ enough) (push value item)

theorem reads_iterate {step : α → Parser (Option α)} (textOf : List β → List Char)
    (okOf : β → Bool) (push : α → β → α) (is : Ahead (textOf items) kind tail)
    (enough : items.length ≤ tail.length + 2)
    (goesOn : ∀ value, ∀ item ∈ items, ∀ others,
      Reads (step value) (textOf (item :: others)) (okOf item) (some (push value item)) (textOf others))
    (ends : ∀ value, Reads (step value) (textOf []) true none (textOf [])) (value : α) :
    Reads (iterate step value) (textOf items) (items.all okOf) (items.foldl push value)
      (textOf []) :=
  reads_ahead is fun token _ _ isTail => by
    rw [isTail]
    exact reads_iterateUpTo textOf okOf push goesOn ends enough value

/-- What each step of a loop keeps, the loop keeps. -/
theorem leaves_iterateUpTo {step : α → Parser (Option α)} {kept : List Char → Prop}
    (keeps : ∀ value text, kept text → Leaves (step value) text fun _ rest => kept rest)
    (count : Nat) (value : α) {text : List Char} (holds : kept text) :
    Leaves (iterateUpTo step count value) text fun _ rest => kept rest := by
  induction count generalizing value text with
  | zero => exact leaves_pure holds
  | succ count ih =>
    refine (keeps value text holds).bind fun further rest still => ?_
    cases further with
    | none => exact leaves_pure still
    | some next => exact ih next still

end Loops

/-! ### Lists -/

/-- In front of the rest, the text starts with a token that passes the test. -/
def Starts (test : TokenKind → Bool) (text rest : List Char) : Prop :=
  ∃ kind tail, Ahead (text ++ rest) kind tail ∧ test kind = true ∧ rest.length ≤ tail.length

theorem Starts.other {test : TokenKind → Bool} {text rest : List Char} (starts : Starts test text rest)
    {kind : TokenKind} (fails : test kind = false) : NotAhead (text ++ rest) kind := by
  obtain ⟨_, _, is, passes, _⟩ := starts
  refine is.other ?_
  rintro rfl
  exact Bool.false_ne_true (fails.symm.trans passes)

/-- Texts with a separator in front of each, and the rest. -/
def behind (separator : List Char) (texts : List (List Char)) (rest : List Char) : List Char :=
  texts.flatMap (separator ++ ·) ++ rest

/-- Texts with a separator between them are the first of them and the others behind it. -/
theorem intercalate_append (separator text : List Char) (texts : List (List Char)) (rest : List Char) :
    separator.intercalate (text :: texts) ++ rest = text ++ behind separator texts rest := by
  induction texts generalizing text with
  | nil => simp [behind]
  | cons other texts ih =>
    rw [List.intercalate_cons_cons, List.append_assoc, List.append_assoc, ih other]
    simp [behind]

theorem behind_cons (separator text : List Char) (texts : List (List Char)) (rest : List Char) :
    behind separator (text :: texts) rest =
      separator ++ (separator.intercalate (text :: texts) ++ rest) := by
  simp [intercalate_append, behind]

theorem length_le_behind {separator : List Char} (some : separator ≠ []) (texts : List (List Char))
    (rest : List Char) : texts.length ≤ (behind separator texts rest).length := by
  rw [behind, List.length_append]
  induction texts with
  | nil => exact Nat.zero_le _
  | cons text texts ih =>
    have positive := List.length_pos_iff.mpr some
    rw [List.flatMap_cons, List.length_append, List.length_append, List.length_cons]
    omega

theorem foldl_push (items : List β) (valueOf : β → α) (read : List α) :
    items.foldl (fun read item => valueOf item :: read) read =
      (items.map valueOf).reverse ++ read := by
  induction items generalizing read with
  | nil => rfl
  | cons item items ih =>
    rw [List.foldl_cons, ih, List.map_cons, List.reverse_cons, List.append_assoc]
    rfl

section Lists

variable {items : List β} {chars : β → List Char} {okOf : β → Bool} {valueOf : β → α}
  {rest tail : List Char} {closing : String} {element : Parser α} {test : TokenKind → Bool}

/-- A loop that reads items with separators between them, up to the closing mark. -/
theorem reads_items {separator : List Char} {step : List α → Parser (Option (List α))}
    (some : separator ≠ []) (closes : Ahead rest (.mark closing) tail)
    (starts : ∀ item ∈ items, ∀ others : List β,
      Starts test (chars item) (behind separator (others.map chars) rest))
    (goesOn : ∀ read, ∀ item ∈ items, ∀ others : List β,
      Reads (step read) (chars item ++ behind separator (others.map chars) rest) (okOf item)
        (.some (valueOf item :: read)) (separator.intercalate (others.map chars) ++ rest))
    (ends : ∀ read, Reads (step read) rest true none rest) :
    Reads (do return (← iterate step []).reverse) (separator.intercalate (items.map chars) ++ rest)
      (items.all okOf) (items.map valueOf) rest := by
  have ahead : ∃ kind tail, Ahead (separator.intercalate (items.map chars) ++ rest) kind tail ∧
      items.length ≤ tail.length + 2 := by
    cases items with
    | nil => exact ⟨_, tail, closes, Nat.zero_le _⟩
    | cons item others =>
      rw [List.map_cons, intercalate_append]
      obtain ⟨kind, tail, is, _, long⟩ := starts item List.mem_cons_self others
      have all := length_le_behind some (others.map chars) rest
      rw [List.length_map] at all
      refine ⟨kind, tail, is, ?_⟩
      rw [List.length_cons]
      omega
  obtain ⟨kind, tail', is, enough⟩ := ahead
  have loop := reads_iterate (fun items : List β => separator.intercalate (items.map chars) ++ rest)
    okOf (fun read item => valueOf item :: read) is enough
    (fun read item member others => by
      rw [List.map_cons, intercalate_append]
      exact goesOn read item member others)
    ends []
  have reversed : (items.foldl (fun read item => valueOf item :: read) []).reverse =
      items.map valueOf := by
    rw [foldl_push, List.append_nil, List.reverse_reverse]
  rw [← Bool.and_true (items.all okOf), ← reversed]
  exact loop.bind fun _ => reads_pure _ rest

/-- A list of elements behind commas is read up to its closing mark. -/
theorem reads_listUntil (closes : Ahead rest (.mark closing) tail) (apart : closing ≠ ",")
    (starts : ∀ item ∈ items, ∀ others : List β,
      Starts test (chars item) (behind [',', ' '] (others.map chars) rest))
    (closingFails : test (.mark closing) = false)
    (reads : ∀ item ∈ items, ∀ others : List β,
      let text := behind [',', ' '] (others.map chars) rest
      Reads element (chars item ++ text) (okOf item) (valueOf item) text) :
    Reads (listUntil closing element) ([',', ' '].intercalate (items.map chars) ++ rest)
      (items.all okOf) (items.map valueOf) rest := by
  refine reads_items (List.cons_ne_nil _ _) closes starts (fun read item member others => ?_)
    fun _ => (reads_atMark closes).andThen (reads_pure none rest)
  have opens := (starts item member others).other closingFails
  refine (reads_atMark_other opens).andThen ?_
  rw [← Bool.and_true (okOf item)]
  refine (reads item member others).bind fun _ => ?_
  cases others with
  | nil =>
    have noComma : NotAhead rest (.mark ",") := closes.other fun same => apart (TokenKind.mark.inj same)
    refine (reads_eatMark_other noComma).andThen ?_
    exact (reads_atMark closes).andThen (reads_pure _ rest)
  | cons other others =>
    rw [List.map_cons, behind_cons]
    refine (reads_eatMark (ahead_punctuation (by decide : ',' ∈ punctuation) _)).andThen ?_
    exact (reads_pure (some (valueOf item :: read)) _).unblank

/-- Elements that end with semicolons, but for the last one, are read up to their closing mark. -/
theorem reads_manyUntil (closes : Ahead rest (.mark closing) tail)
    (starts : ∀ item ∈ items, ∀ others : List β,
      Starts test (chars item) (behind [';', ' '] (others.map chars) rest))
    (closingFails : test (.mark closing) = false)
    (last : ∀ item ∈ items, Reads element (chars item ++ rest) (okOf item) (valueOf item) rest)
    (reads : ∀ item ∈ items, ∀ text,
      Reads element (chars item ++ ';' :: text) (okOf item) (valueOf item) text) :
    Reads (manyUntil closing element) ([';', ' '].intercalate (items.map chars) ++ rest)
      (items.all okOf) (items.map valueOf) rest := by
  refine reads_items (List.cons_ne_nil _ _) closes starts (fun read item member others => ?_)
    fun _ => (reads_atMark closes).andThen (reads_pure none rest)
  have opens := (starts item member others).other closingFails
  refine (reads_atMark_other opens).andThen ?_
  rw [← Bool.and_true (okOf item)]
  cases others with
  | nil => exact (last item member).bind fun _ => reads_pure _ rest
  | cons other others =>
    rw [List.map_cons, behind_cons]
    exact (reads item member _).unblank.bind fun _ => reads_pure _ _

end Lists

end SwiftBindings.Script
