/-
**Tuples and object types are read as they are written.**

A tuple has types with commas between them, an object type has properties with semicolons between them.
Both are read if the types in them are.

What is taken for a pattern of names in front of an arrow could be a tuple or an object type as well. If
it is taken for one, the reader stops where the tuple or the object type ends (`leaves_listUntil`).
-/

import SwiftBindings.Proofs.Script.WrittenTypes

namespace SwiftBindings.Script

open Declared Text TypeGraph Grammar

variable {α β : Type}

/-! ### Lists of types -/

section Lists

variable {separator rest : List Char}

/-- The marks that separate the types of a tuple, or the properties of an object type. -/
def separators : List (List Char) := [[',', ' '], [';', ' ']]

/-- What is behind an item ends its type. -/
theorem follows_behind (known : separator ∈ separators) (follows : Follows closers rest)
    (texts : List (List Char)) : Follows closers (behind separator texts rest) := by
  cases texts with
  | nil => exact follows
  | cons text texts =>
    rw [behind_cons]
    simp only [separators, List.mem_cons, List.not_mem_nil, or_false] at known
    rcases known with rfl | rfl
    · exact follows_punctuation (by decide) (by decide) _
    · exact follows_punctuation (by decide) (by decide) _

theorem Heads.starts_with {chars : List Char} (heads : Heads closers chars)
    (follows : Follows closers rest) : Starts opensType chars rest := by
  obtain ⟨kind, tail, is, opens, long, _⟩ := heads.starts rest follows
  exact ⟨kind, tail, is, opens, long⟩

variable {items : List α} {chars : α → List Char} {closing : String} {element : Parser β}
  {tail : List Char}

/-- If items are taken for a list of patterns, the reader stops in front of the closing mark, or of an
item that it did not take. For each item it stops at the end of it, or where a list does not go on. -/
theorem leaves_listUntil (known : separator ∈ separators) (closes : Ahead rest (.mark closing) tail)
    (closer : closing ∉ [",", ";"])
    (starts : ∀ item ∈ items, ∀ others : List α,
      NotAhead (chars item ++ behind separator (others.map chars) rest) (.mark closing))
    (leaves : ∀ item ∈ items, ∀ others : List α,
      Leaves element (chars item ++ behind separator (others.map chars) rest) fun _ stop =>
        stop = behind separator (others.map chars) rest ∨
          NotAhead stop (.mark ",") ∧ NotAhead stop (.mark closing)) :
    Leaves (listUntil closing element) (separator.intercalate (items.map chars) ++ rest)
      fun _ stop => stop = rest ∨ NotAhead stop (.mark closing) := by
  let kept := fun text : List Char => ∃ others, others ⊆ items ∧
    text = separator.intercalate (others.map chars) ++ rest
  have after : ∀ others ⊆ items, ∀ (read : List β) (stop : List Char),
      (stop = behind separator (others.map chars) rest ∨
        NotAhead stop (.mark ",") ∧ NotAhead stop (.mark closing)) → Leaves (do
        unless ← eatMark "," do
          unless ← atMark closing do unexpected
        return some read : Parser (Option (List β))) stop fun _ stop => kept stop := by
    intro others among read stop stops
    have nothing : ∀ {text : List Char}, NotAhead text (.mark ",") → NotAhead text (.mark closing) →
        Leaves (do
          unless ← eatMark "," do
            unless ← atMark closing do unexpected
          return some read : Parser (Option (List β))) text fun _ stop => kept stop := by
      intro text comma other
      refine (reads_eatMark_other comma).andLeaves ?_
      refine (reads_atMark_other other).andLeaves ?_
      exact (fails_unexpected text).bind.leaves _
    rcases stops with rfl | ⟨comma, other⟩
    · cases others with
      | nil =>
        have comma : NotAhead rest (.mark ",") := closes.other fun same => by
          rw [TokenKind.mark.inj same] at closer
          exact closer (by decide)
        refine (reads_eatMark_other comma).andLeaves ?_
        exact (reads_atMark closes).andLeaves (leaves_pure ⟨[], among, rfl⟩)
      | cons other others =>
        rw [List.map_cons, behind_cons, ← List.map_cons]
        simp only [separators, List.mem_cons, List.not_mem_nil, or_false] at known
        rcases known with rfl | rfl
        · have comma := reads_eatMark (ahead_punctuation (by decide : ',' ∈ punctuation) (' ' ::
            ([',', ' '].intercalate ((other :: others).map chars) ++ rest)))
          exact comma.unblank.andLeaves (leaves_pure ⟨other :: others, among, rfl⟩)
        · have semicolon := ahead_punctuation (by decide : ';' ∈ punctuation) (' ' ::
            ([';', ' '].intercalate ((other :: others).map chars) ++ rest))
          refine nothing (semicolon.other (by decide)) (semicolon.other fun same => ?_)
          rw [← TokenKind.mark.inj same] at closer
          exact closer (by decide)
    · exact nothing comma other
  have step : ∀ (read : List β) (text : List Char), kept text → Leaves (do
        if ← atMark closing then return none
        let item ← element
        unless ← eatMark "," do
          unless ← atMark closing do unexpected
        return some (item :: read) : Parser (Option (List β))) text fun _ stop => kept stop := by
    rintro read text ⟨others, among, rfl⟩
    cases others with
    | nil => exact (reads_atMark closes).andLeaves (leaves_pure ⟨[], among, rfl⟩)
    | cons item others =>
      have member := among List.mem_cons_self
      rw [List.map_cons, intercalate_append]
      refine (reads_atMark_other (starts item member others)).andLeaves ?_
      exact (leaves item member others).bind fun value stop stops =>
        after others (fun other inside => among (List.mem_cons_of_mem _ inside)) (value :: read) stop stops
  refine (leaves_aheadAny fun token => leaves_iterateUpTo step _ [] ⟨items, fun _ => id, rfl⟩).bind
    fun read stop holds => leaves_pure ?_
  obtain ⟨others, among, rfl⟩ := holds
  cases others with
  | nil => exact .inl rfl
  | cons item others =>
    rw [List.map_cons, intercalate_append]
    exact .inr (starts item (among List.mem_cons_self) others)

end Lists

theorem length_le_intercalate (separator : List Char) (chars : α → List Char) {items : List α} {item : α}
    (member : item ∈ items) :
    (chars item).length ≤ (separator.intercalate (items.map chars)).length := by
  induction items with
  | nil => cases member
  | cons first others ih =>
    have shape := intercalate_append separator (chars first) (others.map chars) []
    rw [List.append_nil] at shape
    rw [List.map_cons, shape, List.length_append]
    rcases List.mem_cons.mp member with rfl | inside
    · omega
    · have shorter := ih inside
      cases others with
      | nil => cases inside
      | cons second others =>
        rw [List.map_cons, behind_cons, List.append_nil, List.length_append, ← List.map_cons]
        omega

section Tuples

variable {marks : List String} {rest : List Char}

theorem fails_elementLabel {chars : List Char} (heads : Heads closers chars)
    (follows : Follows closers rest) : Fails elementLabel (chars ++ rest) := by
  obtain ⟨kind, tail, is, opens, _, word⟩ := heads.starts rest follows
  refine (reads_eatMark_other (heads.not_ahead follows rfl)).andFails ?_
  cases kind with
  | word name =>
    have stops := word name rfl
    refine (reads_anyWord is).andFails ?_
    refine (reads_eatMark_other (stops.not_mark (by decide) (follows.not_mark (by decide)))).andFails ?_
    exact fails_expectMark (stops.not_mark (by decide) (follows.not_mark (by decide)))
  | _ => exact (fails_anyWord is fun _ => TokenKind.noConfusion).bind

theorem Written.IsPhrase.reads_tupleElement {element : Written} (phrase : element.IsPhrase)
    {depth : Nat} (enough : element.chars.length ≤ depth) (follows : Follows closers rest) :
    Reads (tupleElement (.ofDepth (depth + 1))) (element.chars ++ rest) element.ok element.tree rest := by
  refine (reads_attempt_fails (fails_elementLabel phrase.heads follows)).andThen ?_
  refine (reads_eatMark_other (phrase.heads.not_ahead follows rfl)).andThen ?_
  rw [← Bool.and_true element.ok]
  refine (phrase.reads depth enough rest follows).bind fun _ => ?_
  exact (reads_eatMark_other (follows.not_mark (by decide))).andThen (reads_pure _ rest)

/-- A tuple. -/
def Written.tuple (elements : List Written) : Written :=
  ⟨'[' :: ([',', ' '].intercalate (elements.map Written.chars) ++ [']']), elements.all Written.ok,
    .tuple (elements.map Written.tree)⟩

theorem Written.tuple_append (elements : List Written) (rest : List Char) :
    (Written.tuple elements).chars ++ rest =
      '[' :: ([',', ' '].intercalate (elements.map Written.chars) ++ ']' :: rest) := by
  simp [Written.tuple]

/-- What is behind an element of a tuple ends its type. -/
theorem follows_elements (elements : List Written) (rest : List Char) :
    Follows closers (behind [',', ' '] (elements.map Written.chars) (']' :: rest)) :=
  follows_behind (by decide) (follows_punctuation (by decide) (by decide) rest) _

theorem leaves_patternItem {chars : List Char} (heads : Heads closers chars)
    (follows : Follows closers rest) (depth : Nat) :
    Leaves (patternItem (.ofDepth depth)) (chars ++ rest) fun _ stop => Stops rest stop := by
  refine (reads_atMark_other (heads.not_ahead follows rfl)).andLeaves ?_
  refine (reads_eatMark_other (heads.not_ahead follows rfl)).andLeaves ?_
  refine (leaves_pattern heads follows depth).bind fun _ stop stops => ?_
  have noDefault := stops.not_mark (by decide : "=" ∉ operators) (follows.not_mark (by decide))
  exact (reads_eatMark_other noDefault).andLeaves (leaves_pure stops)

variable {elements : List Written} (phrases : ∀ element ∈ elements, element.IsPhrase)

include phrases

theorem heads_tuple : Heads marks (Written.tuple elements).chars := by
  have is : ∀ rest, Ahead ((Written.tuple elements).chars ++ rest) (.mark "[")
      ([',', ' '].intercalate (elements.map Written.chars) ++ ']' :: rest) :=
    fun rest => Written.tuple_append elements rest ▸ ahead_punctuation (by decide : '[' ∈ punctuation) _
  refine ⟨fun rest _ => ?_, fun depth rest _ => ?_, fun depth rest _ => ?_⟩
  · refine ⟨_, _, is rest, rfl, ?_, fun _ same => absurd same TokenKind.noConfusion⟩
    rw [List.length_append, List.length_cons]
    omega
  · exact reads_not_function ((is rest).other (by decide))
  · have closes := ahead_punctuation (by decide : ']' ∈ punctuation) rest
    refine leaves_ahead (is rest) fun token isKind => ?_
    rw [isKind]
    refine (reads_advance (is rest)).andLeaves ?_
    refine (leaves_listUntil (by decide) closes (by decide) (fun element member others => ?_)
      fun element member others => ?_).bind fun _ stop stops => ?_
    · exact (phrases element member).heads.not_ahead (follows_elements others rest) rfl
    · refine (leaves_patternItem (phrases element member).heads (follows_elements others rest) depth).mono
        fun _ stop stops => stops.imp id fun goesOn => ?_
      exact ⟨goesOn.1.not_mark (by decide), goesOn.1.not_mark (by decide)⟩
    · rcases stops with rfl | other
      · exact (reads_expectMark closes).andLeaves (leaves_pure (.inl rfl))
      · exact (fails_expectMark other).bind.leaves _

theorem reads_tuple {depth : Nat} (enough : (Written.tuple elements).chars.length ≤ depth) :
    Reads (tuple (.ofDepth depth)) ((Written.tuple elements).chars ++ rest) (elements.all Written.ok)
      (.tuple (elements.map Written.tree)) rest := by
  have length : (Written.tuple elements).chars.length =
      ([',', ' '].intercalate (elements.map Written.chars)).length + 2 := by
    simp [Written.tuple]
  obtain ⟨depth, rfl⟩ : ∃ less, depth = less + 1 := ⟨depth - 1, by omega⟩
  have closes := ahead_punctuation (by decide : ']' ∈ punctuation) rest
  have read : Reads (listUntil "]" (tupleElement (.ofDepth (depth + 1))))
      ([',', ' '].intercalate (elements.map Written.chars) ++ ']' :: rest) (elements.all Written.ok)
      (elements.map Written.tree) (']' :: rest) := by
    refine reads_listUntil closes (by decide)
      (fun element member others =>
        (phrases element member).heads.starts_with (follows_elements others rest))
      (by decide) fun element member others => ?_
    have short := length_le_intercalate [',', ' '] Written.chars member
    exact (phrases element member).reads_tupleElement (by omega) (follows_elements others rest)
  rw [Written.tuple_append]
  refine (reads_expectMark (ahead_punctuation (by decide : '[' ∈ punctuation) _)).andThen ?_
  rw [← Bool.and_true (elements.all Written.ok)]
  exact read.bind fun _ => (reads_expectMark closes).andThen (reads_pure _ rest)

theorem tuple_isPrimary : (Written.tuple elements).IsPrimary := by
  refine ⟨heads_tuple phrases, fun depth enough rest _ => ?_⟩
  have is : Ahead ((Written.tuple elements).chars ++ rest) (.mark "[")
      ([',', ' '].intercalate (elements.map Written.chars) ++ ']' :: rest) :=
    Written.tuple_append elements rest ▸ ahead_punctuation (by decide : '[' ∈ punctuation) _
  refine reads_ahead is fun token isKind _ _ => ?_
  rw [isKind]
  exact reads_tuple phrases enough

end Tuples

/-! ### Object types -/

/-- A property of an object type. -/
structure WrittenField where
  /-- Name of the property, an identifier. -/
  name : String
  /-- The property may be absent. -/
  optional : Bool
  /-- Type of the property. -/
  type : Written

/-- The text of the property. -/
def WrittenField.chars (field : WrittenField) : List Char :=
  field.name.toList ++ ((if field.optional then ['?'] else []) ++ ':' :: ' ' :: field.type.chars)

/-- The property, with an identifier for a name, is read. -/
structure WrittenField.IsRead (field : WrittenField) : Prop where
  /-- The name is an identifier. -/
  identifier : isIdentifierName field.name = true
  /-- The type is read. -/
  type : field.type.IsPhrase

/-- The syntax tree of the property. -/
def WrittenField.tree (field : WrittenField) : MemberTree :=
  .property (.known field.name) field.optional field.type.tree

/-- An object type. -/
def Written.object (fields : List WrittenField) : Written :=
  ⟨if fields = [] then ['\x7b', '\x7d']
    else '\x7b' :: ' ' :: ([';', ' '].intercalate (fields.map WrittenField.chars) ++ [' ', '\x7d']),
    fields.all fun field => field.type.ok, .object (fields.map WrittenField.tree)⟩

section Fields

variable {field : WrittenField} {rest : List Char}

theorem WrittenField.chars_append (field : WrittenField) (rest : List Char) :
    field.chars ++ rest = field.name.toList ++ ((if field.optional then ['?'] else []) ++
      ':' :: ' ' :: (field.type.chars ++ rest)) := by
  simp [WrittenField.chars]

/-- The mark behind the name of a property. -/
theorem ahead_fieldMark (optional : Bool) (text : List Char) :
    ∃ mark tail, (mark = "?" ∨ mark = ":") ∧ EndsWord ((if optional then ['?'] else []) ++ ':' :: text) ∧
      Ahead ((if optional then ['?'] else []) ++ ':' :: text) (.mark mark) tail := by
  cases optional with
  | true =>
    have follows : Follows ["?"] ('?' :: ':' :: text) :=
      follows_mark (by decide) (ahead_optional text) (by decide)
    exact ⟨_, _, .inl rfl, follows.1, ahead_optional text⟩
  | false =>
    have colon := ahead_punctuation (by decide : ':' ∈ punctuation) text
    have follows : Follows [":"] (':' :: text) := follows_mark (by decide) colon (by decide)
    exact ⟨_, _, .inr rfl, follows.1, colon⟩

theorem reads_fieldMark (optional : Bool) (text : List Char) :
    Reads (eatMark "?") ((if optional then ['?'] else []) ++ ':' :: text) true optional
      (':' :: text) := by
  cases optional with
  | true => exact reads_eatMark (ahead_optional text)
  | false =>
    have colon := ahead_punctuation (by decide : ':' ∈ punctuation) text
    exact reads_eatMark_other (colon.other (by decide))

/-- A key is no mark that stands behind the name of a property. -/
theorem fails_memberKey {g : Grammar} {text tail : List Char} {mark : String}
    (behind : mark = "?" ∨ mark = ":") (is : Ahead text (.mark mark) tail) :
    Fails (memberKey g) text := by
  refine fails_ahead is fun token isKind => ?_
  rw [isKind]
  have noWord := fails_anyWord is fun _ => TokenKind.noConfusion
  rcases behind with rfl | rfl
  · exact noWord.bind
  · exact noWord.bind

theorem reads_memberKey {g : Grammar} {text tail : List Char} {name : String}
    (is : Ahead text (.word name) tail) : Reads (memberKey g) text true (.known name) tail := by
  refine reads_ahead is fun token isKind _ _ => ?_
  rw [isKind]
  exact (reads_anyWord is).andThen (reads_pure _ tail)

/-- A name in front of the mark of a property is no modifier. -/
theorem reads_eatModifier_field {words : List String} {text tail others : List Char} {name mark : String}
    (behind : mark = "?" ∨ mark = ":") (is : Ahead text (.word name) tail)
    (next_is : Ahead tail (.mark mark) others) :
    Reads (eatModifier words) text true false text := by
  refine reads_ahead is fun token isKind _ _ => ?_
  rw [isKind]
  refine reads_aheadTwo is next_is fun next isNext => ?_
  have ends : followsModifier next = false := by
    rw [followsModifier, isNext]
    rcases behind with rfl | rfl <;> exact Bool.and_false _
  rw [ends, Bool.and_false]
  exact reads_pure false text

theorem fails_accessor {g : Grammar} {text tail others : List Char} {name mark : String}
    (behind : mark = "?" ∨ mark = ":") (is : Ahead text (.word name) tail)
    (next_is : Ahead tail (.mark mark) others) : Fails (accessor g) text := by
  have noKey := (fails_memberKey behind next_is : Fails (memberKey g) tail)
  by_cases get : name = "get"
  · subst get
    exact (reads_eatWord is).andFails noKey.bind
  · refine (reads_eatWord_other (is.other fun same => get (TokenKind.word.inj same))).andFails ?_
    by_cases set : name = "set"
    · subst set
      exact ((reads_eatWord is).andThen (reads_pure () tail)).andFails noKey.bind
    · exact (fails_expectWord (is.other fun same => set (TokenKind.word.inj same))).bind

theorem WrittenField.IsRead.reads_property (readable : field.IsRead) {depth : Nat}
    (enough : field.type.chars.length ≤ depth) (start : Nat) {after : List Char}
    (follows : Follows closers rest) (ends : Reads memberEnd rest true () after) :
    Reads (propertyOrMethod (.ofDepth (depth + 1)) start) (field.chars ++ rest) field.type.ok field.tree
      after := by
  rw [field.chars_append]
  obtain ⟨mark, tail, behind, endsWord, is⟩ :=
    ahead_fieldMark field.optional (' ' :: (field.type.chars ++ rest))
  have colon := ahead_punctuation (by decide : ':' ∈ punctuation) (' ' :: (field.type.chars ++ rest))
  have type := (readable.type.reads depth enough rest follows).blank
  have annotated : Reads (memberType (.ofDepth (depth + 1))) (':' :: ' ' :: (field.type.chars ++ rest))
      field.type.ok field.type.tree rest := by
    have typed : Reads ( annotation (.ofDepth (depth + 1)))
        (':' :: ' ' :: (field.type.chars ++ rest)) field.type.ok (some field.type.tree) rest := by
      refine (reads_eatMark colon).andThen ?_
      rw [← Bool.and_true field.type.ok]
      exact type.bind fun _ => reads_pure _ rest
    rw [← Bool.and_true field.type.ok]
    exact typed.bind fun _ => reads_pure _ rest
  refine (reads_memberKey (ahead_word readable.identifier endsWord)).andThen ?_
  refine (reads_fieldMark field.optional _).andThen ?_
  refine (reads_atMark_other (colon.other (by decide))).andThen ?_
  refine (reads_atOpeningAngle_other colon (by decide) (by decide)).andThen ?_
  rw [← Bool.and_true field.type.ok]
  exact annotated.bind fun _ => ends.andThen (reads_pure _ after)

theorem WrittenField.IsRead.reads_member (readable : field.IsRead) {depth : Nat}
    (enough : field.type.chars.length ≤ depth) {after : List Char} (follows : Follows closers rest)
    (ends : Reads memberEnd rest true () after) :
    Reads (objectMember (.ofDepth (depth + 1))) (field.chars ++ rest) field.type.ok (some field.tree)
      after := by
  obtain ⟨mark, others, behind, endsWord, next_is⟩ :=
    ahead_fieldMark field.optional (' ' :: (field.type.chars ++ rest))
  have is := ahead_word readable.identifier endsWord
  rw [← field.chars_append] at is
  refine reads_here fun start => reads_ahead is fun token isKind _ _ => ?_
  refine reads_aheadTwo is next_is fun next isNext => ?_
  refine (reads_atOpeningAngle_other is TokenKind.noConfusion TokenKind.noConfusion).andThen ?_
  have noSignature : token.isMark "(" = false := by
    rw [Token.isMark, isKind]
    rfl
  have noConstructor : (next.isMark "(" || next.isMark "<") = false := by
    rw [Token.isMark, Token.isMark, isNext]
    rcases behind with rfl | rfl <;> decide
  rw [noSignature, noConstructor, Bool.and_false, Bool.or_false, if_neg Bool.false_ne_true,
    if_neg Bool.false_ne_true]
  refine (reads_eatModifier_field behind is next_is).andThen ?_
  have noIndex : Reads startsIndex (field.chars ++ rest) true false (field.chars ++ rest) :=
    reads_foresee_not ((fails_expectMark (is.other TokenKind.noConfusion)).bind.leaves _)
  refine noIndex.andThen ?_
  rw [if_neg Bool.false_ne_true]
  refine (reads_attempt_fails (fails_accessor behind is next_is)).andThen ?_
  rw [← Bool.and_true field.type.ok]
  exact (readable.reads_property enough start follows ends).bind fun _ => reads_pure _ after

end Fields

section Objects

variable {marks : List String} {rest : List Char} {fields : List WrittenField}

theorem reads_memberEnd_closing {closing : List Char} (closes : Ahead closing (.mark "\x7d") rest) :
    Reads memberEnd closing true () closing := by
  refine (reads_eatMark_other (closes.other (by decide))).andThen ?_
  refine (reads_eatMark_other (closes.other (by decide))).andThen ?_
  refine reads_ahead closes fun token isKind _ _ => ?_
  have isClosing : token.isMark "\x7d" = true := by
    rw [Token.isMark, isKind]
    decide
  rw [isClosing, Bool.true_or, Bool.true_or]
  exact reads_pure () _

theorem reads_memberEnd_semicolon (rest : List Char) : Reads memberEnd (';' :: rest) true () rest := by
  have is := ahead_punctuation (by decide : ';' ∈ punctuation) rest
  refine (reads_eatMark_other (is.other (by decide))).andThen ?_
  exact (reads_eatMark is).andThen (reads_pure () rest)

/-- What closes an object type: a brace, behind a blank if there are properties. -/
def Written.closing (fields : List WrittenField) (rest : List Char) : List Char :=
  if fields = [] then '\x7d' :: rest else ' ' :: '\x7d' :: rest

theorem ahead_closing (fields : List WrittenField) (rest : List Char) :
    Ahead (Written.closing fields rest) (.mark "\x7d") rest := by
  have brace := ahead_punctuation (by decide : '\x7d' ∈ punctuation) rest
  rw [Written.closing]
  split
  · exact brace
  · exact brace.blank

/-- What is behind a property ends its type. -/
theorem follows_fields (fields others : List WrittenField) (rest : List Char) :
    Follows closers (behind [';', ' '] (others.map WrittenField.chars) (Written.closing fields rest)) := by
  have brace := ahead_punctuation (by decide : '\x7d' ∈ punctuation) rest
  refine follows_behind (by decide) ?_ _
  rw [Written.closing]
  split
  · exact follows_mark (by decide) brace (by decide)
  · exact follows_blank brace (by decide)

/-- The properties of an object type and what closes it. -/
def Written.inside (fields : List WrittenField) (rest : List Char) : List Char :=
  [';', ' '].intercalate (fields.map WrittenField.chars) ++ Written.closing fields rest

theorem ahead_object (fields : List WrittenField) (rest : List Char) :
    ∃ tail, Ahead ((Written.object fields).chars ++ rest) (.mark "\x7b") tail ∧
      (tail = Written.inside fields rest ∨ tail = ' ' :: Written.inside fields rest) := by
  have brace : ∀ text, Ahead ('\x7b' :: text) (.mark "\x7b") text :=
    ahead_punctuation (by decide : '\x7b' ∈ punctuation)
  by_cases none : fields = []
  · subst none
    exact ⟨_, brace _, .inl rfl⟩
  · have text : (Written.object fields).chars ++ rest =
        '\x7b' :: ' ' :: Written.inside fields rest := by
      simp [Written.object, Written.inside, Written.closing, none]
    exact ⟨_, text ▸ brace _, .inr rfl⟩

theorem reads_opening (fields : List WrittenField) (rest : List Char) :
    Reads advance ((Written.object fields).chars ++ rest) true () (Written.inside fields rest) := by
  obtain ⟨tail, is, rfl | rfl⟩ := ahead_object fields rest
  · exact reads_advance is
  · exact (reads_advance is).unblank

theorem reads_expectOpening (fields : List WrittenField) (rest : List Char) :
    Reads (expectMark "\x7b") ((Written.object fields).chars ++ rest) true ()
      (Written.inside fields rest) := by
  obtain ⟨tail, is, rfl | rfl⟩ := ahead_object fields rest
  · exact reads_expectMark is
  · exact (reads_expectMark is).unblank

/-- The first token inside an object type: the closing brace, or a name with a mark behind it. -/
theorem ahead_inside (readable : ∀ field ∈ fields, field.IsRead) (rest : List Char) :
    Ahead (Written.inside fields rest) (.mark "\x7d") rest ∨
      ∃ name tail mark others, Ahead (Written.inside fields rest) (.word name) tail ∧
        Ahead tail (.mark mark) others ∧ (mark = "?" ∨ mark = ":") := by
  cases fields with
  | nil => exact .inl (ahead_closing [] rest)
  | cons field others =>
    rw [Written.inside, List.map_cons, intercalate_append, field.chars_append]
    obtain ⟨mark, tail, behind, ends, is⟩ := ahead_fieldMark field.optional _
    exact .inr ⟨_, _, mark, tail, ahead_word (readable field List.mem_cons_self).identifier ends, is,
      behind⟩

/-- An object type is not taken for a mapped type. -/
theorem reads_startsMapped (readable : ∀ field ∈ fields, field.IsRead) (rest : List Char) :
    Reads startsMapped ((Written.object fields).chars ++ rest) true false
      ((Written.object fields).chars ++ rest) := by
  refine reads_foresee_not ((reads_expectOpening fields rest).andLeaves ?_)
  rcases ahead_inside readable rest with closes | ⟨name, tail, mark, others, is, next_is, behind⟩
  · refine (reads_eatMark_other (closes.other (by decide))).andLeaves ?_
    refine (reads_eatMark_other (closes.other (by decide))).andLeaves ?_
    refine (reads_eatWord_other (closes.other TokenKind.noConfusion)).andLeaves ?_
    exact (fails_expectMark (closes.other (by decide))).bind.leaves _
  · refine (reads_eatMark_other (is.other TokenKind.noConfusion)).andLeaves ?_
    refine (reads_eatMark_other (is.other TokenKind.noConfusion)).andLeaves ?_
    by_cases readonly : name = "readonly"
    · subst readonly
      refine (reads_eatWord is).andLeaves ((fails_expectMark (next_is.other ?_)).bind.leaves _)
      rcases behind with rfl | rfl <;> decide
    · refine (reads_eatWord_other (is.other fun same => readonly (TokenKind.word.inj same))).andLeaves ?_
      exact (fails_expectMark (is.other TokenKind.noConfusion)).bind.leaves _

theorem length_lt_object {field : WrittenField} (member : field ∈ fields) :
    field.type.chars.length < (Written.object fields).chars.length := by
  have some : fields ≠ [] := List.ne_nil_of_mem member
  have length : (Written.object fields).chars.length =
      ([';', ' '].intercalate (fields.map WrittenField.chars)).length + 4 := by
    simp [Written.object, some]
  have short := length_le_intercalate [';', ' '] WrittenField.chars member
  have own : field.type.chars.length ≤ field.chars.length := by
    simp only [WrittenField.chars, List.length_append, List.length_cons]
    omega
  omega

/-- The token is a word. -/
def isName : TokenKind → Bool
  | .word _ => true
  | _ => false

theorem starts_field {field : WrittenField} (readable : field.IsRead) (rest : List Char) :
    Starts isName field.chars rest := by
  obtain ⟨_, _, _, ends, _⟩ := ahead_fieldMark field.optional (' ' :: (field.type.chars ++ rest))
  have is := ahead_word readable.identifier ends
  rw [← field.chars_append] at is
  refine ⟨_, _, is, rfl, ?_⟩
  simp only [List.length_append, List.length_cons]
  omega

theorem reads_objectMembers (readable : ∀ field ∈ fields, field.IsRead) {depth : Nat}
    (enough : (Written.object fields).chars.length ≤ depth) :
    Reads (objectMembers (.ofDepth depth)) ((Written.object fields).chars ++ rest)
      (fields.all fun field => field.type.ok) (fields.map WrittenField.tree) rest := by
  have closes := ahead_closing fields rest
  have positive : 0 < (Written.object fields).chars.length := by
    rw [Written.object]
    dsimp only
    split <;> simp
  obtain ⟨depth, rfl⟩ : ∃ less, depth = less + 1 := ⟨depth - 1, by omega⟩
  have read : Reads (manyUntil "\x7d" (objectMember (.ofDepth (depth + 1)))) (Written.inside fields rest)
      (fields.all fun field => field.type.ok) (fields.map fun field => some field.tree)
      (Written.closing fields rest) := by
    refine reads_manyUntil closes (fun field member others => starts_field (readable field member) _)
      (by decide) (fun field member => ?_) fun field member text => ?_
    · have short := length_lt_object member
      exact (readable field member).reads_member (by omega) (follows_fields fields [] rest)
        (reads_memberEnd_closing closes)
    · have short := length_lt_object member
      exact (readable field member).reads_member (by omega)
        (follows_punctuation (by decide) (by decide) text) (reads_memberEnd_semicolon text)
  have members : (fields.map fun field => some field.tree).filterMap id =
      fields.map WrittenField.tree := by
    rw [List.filterMap_map]
    simp
  refine (reads_expectOpening fields rest).andThen ?_
  rw [← Bool.and_true (fields.all fun field => field.type.ok), ← members]
  exact read.bind fun _ => (reads_expectMark closes).andThen (reads_pure _ rest)

/-- What is taken for a pattern of a property: its name, and a part of its type. -/
theorem leaves_patternProperty {field : WrittenField} (readable : field.IsRead)
    (follows : Follows closers rest) (depth : Nat) :
    Leaves (patternProperty (.ofDepth depth)) (field.chars ++ rest) fun _ stop =>
      stop = rest ∨ NotAhead stop (.mark ",") ∧ NotAhead stop (.mark "\x7d") := by
  obtain ⟨_, _, _, ends, _⟩ := ahead_fieldMark field.optional (' ' :: (field.type.chars ++ rest))
  have is := ahead_word readable.identifier ends
  rw [← field.chars_append] at is
  have named : Reads (key (.ofDepth depth)) (field.chars ++ rest) true (.word field.name)
      ((if field.optional then ['?'] else []) ++ ':' :: ' ' :: (field.type.chars ++ rest)) := by
    refine reads_ahead is fun token isKind _ _ => ?_
    rw [isKind]
    exact (reads_advance is).andThen (reads_pure _ _)
  refine (reads_eatMark_other (is.other TokenKind.noConfusion)).andLeaves ?_
  refine leaves_ahead is fun token _ => named.andLeaves ?_
  cases field.optional with
  | true =>
    have mark := ahead_optional (' ' :: (field.type.chars ++ rest))
    refine (reads_eatMark_other (mark.other (by decide))).andLeaves ?_
    rw [if_neg Bool.false_ne_true]
    dsimp only
    split
    · refine (reads_eatMark_other (mark.other (by decide))).andLeaves (leaves_pure (.inr ?_))
      exact ⟨mark.other (by decide), mark.other (by decide)⟩
    · exact (fails_unexpected _).bind.leaves _
  | false =>
    have colon := ahead_punctuation (by decide : ':' ∈ punctuation)
      (' ' :: (field.type.chars ++ rest))
    refine (reads_eatMark colon).unblank.andLeaves ?_
    rw [if_pos rfl]
    refine (leaves_pattern readable.type.heads follows depth).bind fun _ stop stops => ?_
    have noDefault := stops.not_mark (by decide : "=" ∉ operators) (follows.not_mark (by decide))
    refine (reads_eatMark_other noDefault).andLeaves (leaves_pure (stops.imp id fun goesOn => ?_))
    exact ⟨goesOn.1.not_mark (by decide), goesOn.1.not_mark (by decide)⟩

theorem heads_object (readable : ∀ field ∈ fields, field.IsRead) :
    Heads marks (Written.object fields).chars := by
  refine ⟨fun rest _ => ?_, fun depth rest _ => ?_, fun depth rest _ => ?_⟩
  · obtain ⟨tail, is, inside⟩ := ahead_object fields rest
    refine ⟨_, _, is, rfl, ?_, fun _ same => absurd same TokenKind.noConfusion⟩
    have long : rest.length ≤ (Written.inside fields rest).length := by
      rw [Written.inside, Written.closing, List.length_append]
      split <;> simp only [List.length_cons] <;> omega
    rcases inside with rfl | rfl
    · exact long
    · exact Nat.le_succ_of_le long
  · obtain ⟨tail, is, _⟩ := ahead_object fields rest
    exact reads_not_function (is.other (by decide))
  · obtain ⟨tail, is, _⟩ := ahead_object fields rest
    have closes := ahead_closing fields rest
    refine leaves_ahead is fun token isKind => ?_
    rw [isKind]
    refine (reads_opening fields rest).andLeaves ?_
    refine (leaves_listUntil (by decide) closes (by decide) (fun field member others => ?_)
      fun field member others => ?_).bind fun _ stop stops => ?_
    · exact (starts_field (readable field member) _).other rfl
    · exact leaves_patternProperty (readable field member) (follows_fields fields others rest) depth
    · rcases stops with rfl | other
      · exact (reads_expectMark closes).andLeaves (leaves_pure (.inl rfl))
      · exact (fails_expectMark other).bind.leaves _

theorem object_isPrimary (readable : ∀ field ∈ fields, field.IsRead) :
    (Written.object fields).IsPrimary := by
  refine ⟨heads_object readable, fun depth enough rest _ => ?_⟩
  obtain ⟨tail, is, _⟩ := ahead_object fields rest
  refine reads_ahead is fun token isKind _ _ => ?_
  rw [isKind]
  refine (reads_startsMapped readable rest).andThen ?_
  rw [if_neg Bool.false_ne_true, ← Bool.and_true (Written.object fields).ok]
  exact (reads_objectMembers readable enough).bind fun _ => reads_pure _ rest

end Objects

end SwiftBindings.Script
