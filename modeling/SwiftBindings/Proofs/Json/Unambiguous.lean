/-
**The text of a JSON value is unambiguous.**

A value can be read off from the front of a text that starts with it: no other value starts the same
text, and what is left behind it is the same, too (`IsReadOff`). Strings and the texts in brackets say
themselves where they end. A number does not, so what follows it must not go on with a digit; in a text
of values only commas, line breaks and closing brackets follow.

**The main statement.** `Value.fileText_injective`: two values with one text are one value.
-/

import Mathlib.Data.List.TakeWhile
import SwiftBindings.Json.Basic

namespace SwiftBindings.Json

/-- The text does not go on with a digit. -/
def Breaks (rest : List Char) : Prop :=
  ∀ c, rest.head? = some c → c.isDigit = false

theorem breaks_cons {c : Char} (rest : List Char) (other : c.isDigit = false) : Breaks (c :: rest) := by
  intro first found
  rwa [← Option.some.inj found]

/-- The item can be read off from the front of a text. -/
def IsReadOff {α : Type} (text : α → String) (item : α) : Prop :=
  ∀ other rest rest', Breaks rest → Breaks rest' →
    (text item).toList ++ rest = (text other).toList ++ rest' → item = other ∧ rest = rest'

/-! ### Strings -/

/-- The value of a digit to the base sixteen. -/
def hexValue (c : Char) : Nat :=
  if c.isDigit then c.toNat - 48 else c.toNat - 87

theorem hexValue_digitChar : ∀ value < 16, hexValue (Nat.digitChar value) = value := by
  decide

/-- The character that stands in front of a text inside quotes, and the text behind it. -/
def unescape? : List Char → Option (Char × List Char)
  | '\\' :: 'u' :: '0' :: '0' :: high :: low :: rest =>
    some (Char.ofNat (16 * hexValue high + hexValue low), rest)
  | '\\' :: 'n' :: rest => some ('\n', rest)
  | '\\' :: 'r' :: rest => some ('\r', rest)
  | '\\' :: 't' :: rest => some ('\t', rest)
  | '\\' :: 'b' :: rest => some ('\x08', rest)
  | '\\' :: 'f' :: rest => some ('\x0c', rest)
  | '\\' :: c :: rest => some (c, rest)
  | '"' :: _ => none
  | c :: rest => some (c, rest)
  | [] => none

/-- What is written for a character is read as the character. -/
theorem unescape?_escapeChar (c : Char) (rest : List Char) :
    unescape? (escapeChar c ++ rest) = some (c, rest) := by
  rw [escapeChar.eq_def]
  split
  case h_8 quote backslash _ _ _ _ _ =>
    split
    · rename_i control
      show some (Char.ofNat (16 * hexValue (Nat.digitChar (c.toNat / 16)) +
        hexValue (Nat.digitChar (c.toNat % 16))), rest) = _
      rw [hexValue_digitChar _ (by omega), hexValue_digitChar _ (by omega), Nat.div_add_mod,
        Char.ofNat_toNat]
    · rw [List.singleton_append, unescape?.eq_def]
      split <;> simp_all
  all_goals rfl

/-- The characters between quotes end with the quote. -/
theorem flatMap_escapeChar_append_inj : ∀ {chars chars' rest rest' : List Char},
    chars.flatMap escapeChar ++ '"' :: rest = chars'.flatMap escapeChar ++ '"' :: rest' →
      chars = chars' ∧ rest = rest' := by
  intro chars
  induction chars with
  | nil =>
    rintro (_ | ⟨c', chars'⟩) rest rest' same
    · exact ⟨rfl, List.tail_eq_of_cons_eq same⟩
    · rw [List.flatMap_cons, List.append_assoc] at same
      have read := unescape?_escapeChar c' (chars'.flatMap escapeChar ++ '"' :: rest')
      rw [← same] at read
      cases read
  | cons c chars ih =>
    intro chars' rest rest' same
    have read := unescape?_escapeChar c (chars.flatMap escapeChar ++ '"' :: rest)
    rw [← List.append_assoc, ← List.flatMap_cons, same] at read
    cases chars' with
    | nil => cases read
    | cons c' chars' =>
      rw [List.flatMap_cons, List.append_assoc, unescape?_escapeChar, Option.some.injEq,
        Prod.mk.injEq] at read
      obtain ⟨rfl, behind⟩ := read
      obtain ⟨rfl, left⟩ := ih behind.symm
      exact ⟨rfl, left⟩

theorem toList_quotedString (text : String) :
    (quotedString text).toList = '"' :: (text.toList.flatMap escapeChar ++ ['"']) := by
  simp only [quotedString, String.toList_append, String.toList_ofList]
  rfl

/-- A string is read off. -/
theorem isReadOff_quotedString (text : String) : IsReadOff quotedString text := by
  intro other rest rest' _ _ same
  rw [toList_quotedString, toList_quotedString, List.cons_append, List.cons_append, List.append_assoc,
    List.append_assoc] at same
  obtain ⟨chars, left⟩ := flatMap_escapeChar_append_inj (List.tail_eq_of_cons_eq same)
  exact ⟨String.toList_inj.mp chars, left⟩

/-! ### Numbers -/

theorem takeWhile_toDigits_append (number : Nat) {rest : List Char} (breaks : Breaks rest) :
    (Nat.toDigits 10 number ++ rest).takeWhile Char.isDigit = Nat.toDigits 10 number := by
  rw [List.takeWhile_append_of_pos fun c member =>
    Nat.isDigit_of_mem_toDigits (by decide) (by decide) member]
  cases rest with
  | nil => rw [List.takeWhile_nil, List.append_nil]
  | cons c rest =>
    rw [List.takeWhile_cons_of_neg (by rw [breaks c rfl]; exact Bool.false_ne_true), List.append_nil]

/-- A number is read off: no digit follows it. -/
theorem isReadOff_toString (number : Nat) : IsReadOff (toString : Nat → String) number := by
  intro other rest rest' breaks breaks' same
  have same : Nat.toDigits 10 number ++ rest = Nat.toDigits 10 other ++ rest' := by
    rwa [← Nat.toList_repr, ← Nat.toList_repr]
  have digits := congrArg (List.takeWhile Char.isDigit) same
  rw [takeWhile_toDigits_append number breaks, takeWhile_toDigits_append other breaks'] at digits
  refine ⟨?_, List.append_cancel_left (digits ▸ same)⟩
  rw [← @Nat.ofDigitChars_ten_toDigits number, digits, Nat.ofDigitChars_ten_toDigits]

/-! ### Items between brackets -/

section Brackets

variable {α : Type} {text : α → String} {level : Nat} {closing : String}

theorem toList_lineBreak (level : Nat) :
    (lineBreak level).toList = '\n' :: List.replicate (2 * level) ' ' := by
  simp only [lineBreak, String.toList_append, String.toList_ofList]
  rfl

/-- What stands behind the first item of a list: the other items and the end of the list. -/
def behindFirst (text : α → String) (level : Nat) (closing : String) : List α → List Char
  | [] => (lineBreak level).toList ++ closing.toList
  | item :: items => ',' :: ((lineBreak (level + 1)).toList ++
      ((text item).toList ++ behindFirst text level closing items))

theorem breaks_behindFirst (items : List α) (rest : List Char) :
    Breaks (behindFirst text level closing items ++ rest) := by
  cases items with
  | nil =>
    rw [behindFirst, toList_lineBreak]
    exact breaks_cons _ (by decide)
  | cons item items =>
    rw [behindFirst]
    exact breaks_cons _ (by decide)

theorem toList_bracketed_nil (opening closing : String) (level : Nat) :
    (bracketed opening closing level []).toList = opening.toList ++ closing.toList := by
  rw [bracketed, List.isEmpty_nil, if_pos rfl, String.toList_append]

theorem toList_bracketed_cons (opening : String) (first : α) (items : List α) :
    (bracketed opening closing level ((first :: items).map text)).toList =
      opening.toList ++ ((lineBreak (level + 1)).toList ++
        ((text first).toList ++ behindFirst text level closing items)) := by
  have others : (("," ++ lineBreak (level + 1)).intercalate ((first :: items).map text)).toList ++
      ((lineBreak level).toList ++ closing.toList) =
        (text first).toList ++ behindFirst text level closing items := by
    induction items generalizing first with
    | nil => rw [List.map_singleton, String.intercalate_singleton, behindFirst]
    | cons item items ih =>
      rw [List.map_cons, List.map_cons, String.intercalate_cons_cons, ← List.map_cons,
        String.toList_append, String.toList_append, String.toList_append, List.append_assoc,
        List.append_assoc, List.append_assoc, ih item, behindFirst]
      rfl
  rw [bracketed, if_neg (by simp), String.toList_append, String.toList_append, String.toList_append,
    String.toList_append, List.append_assoc, List.append_assoc, List.append_assoc, others]

/-- The items behind the first are read off, one after the other. -/
theorem behindFirst_append_inj {items : List α} (each : ∀ item ∈ items, IsReadOff text item) :
    ∀ {items' : List α} {rest rest' : List Char},
      behindFirst text level closing items ++ rest = behindFirst text level closing items' ++ rest' →
        items = items' ∧ rest = rest' := by
  induction items with
  | nil =>
    rintro (_ | ⟨item', items'⟩) rest rest' same
    · exact ⟨rfl, List.append_cancel_left same⟩
    · rw [behindFirst, behindFirst, toList_lineBreak] at same
      cases (List.cons.inj same).1
  | cons item items ih =>
    rintro (_ | ⟨item', items'⟩) rest rest' same
    · rw [behindFirst, behindFirst, toList_lineBreak level] at same
      cases (List.cons.inj same).1
    · rw [behindFirst, behindFirst, List.cons_append, List.cons_append, List.append_assoc,
        List.append_assoc, List.append_assoc, List.append_assoc] at same
      have inner := List.append_cancel_left (List.tail_eq_of_cons_eq same)
      obtain ⟨rfl, behind⟩ := each item List.mem_cons_self item' _ _ (breaks_behindFirst _ _)
        (breaks_behindFirst _ _) inner
      obtain ⟨rfl, left⟩ := ih (fun other member => each other (List.mem_cons_of_mem _ member)) behind
      exact ⟨rfl, left⟩

/-- **A list between brackets is read off**, when its items are and the closing bracket is no line
break. -/
theorem isReadOff_bracketed (opening : String) {mark : Char} (closes : closing.toList = [mark])
    (visible : mark ≠ '\n') {items : List α} (each : ∀ item ∈ items, IsReadOff text item) :
    IsReadOff (fun items => bracketed opening closing level (items.map text)) items := by
  have empty : (bracketed opening closing level (([] : List α).map text)).toList =
      opening.toList ++ [mark] := by
    rw [List.map_nil, toList_bracketed_nil, closes]
  -- A list without items closes where another one breaks the line.
  have apart : ∀ (item : α) (items : List α) (rest rest' : List Char),
      (opening.toList ++ [mark]) ++ rest ≠ (bracketed opening closing level
        ((item :: items).map text)).toList ++ rest' := by
    intro item items rest rest' same
    rw [toList_bracketed_cons, List.append_assoc, List.append_assoc, toList_lineBreak] at same
    exact visible (List.cons.inj (List.append_cancel_left same)).1
  rintro items' rest rest' _ _ same
  dsimp only at same
  match items, items' with
  | [], [] => exact ⟨rfl, List.append_cancel_left same⟩
  | [], item' :: items' =>
    rw [empty] at same
    exact absurd same (apart item' items' rest rest')
  | item :: items, [] =>
    rw [empty] at same
    exact absurd same.symm (apart item items rest' rest)
  | item :: items, item' :: items' =>
    rw [toList_bracketed_cons, toList_bracketed_cons, List.append_assoc, List.append_assoc,
      List.append_assoc, List.append_assoc, List.append_assoc, List.append_assoc] at same
    have inner := List.append_cancel_left (List.append_cancel_left same)
    obtain ⟨rfl, behind⟩ := each item List.mem_cons_self item' _ _ (breaks_behindFirst _ _)
      (breaks_behindFirst _ _) inner
    obtain ⟨rfl, left⟩ :=
      behindFirst_append_inj (fun other member => each other (List.mem_cons_of_mem _ member)) behind
    exact ⟨rfl, left⟩

end Brackets

/-! ### Values -/

/-- The text of a member of an object. -/
def memberText (level : Nat) (member : String × Value) : String :=
  quotedString member.1 ++ ": " ++ member.2.textAt level

theorem itemTexts_eq_map (level : Nat) (items : List Value) :
    Value.itemTexts level items = items.map (Value.textAt level) := by
  induction items with
  | nil => rw [Value.itemTexts, List.map_nil]
  | cons item items ih => rw [Value.itemTexts, List.map_cons, ih]

theorem memberTexts_eq_map (level : Nat) (members : List (String × Value)) :
    Value.memberTexts level members = members.map (memberText level) := by
  induction members with
  | nil => rw [Value.memberTexts, List.map_nil]
  | cons member members ih =>
    obtain ⟨key, value⟩ := member
    rw [Value.memberTexts, List.map_cons, ih, memberText]

theorem isReadOff_memberText {level : Nat} {member : String × Value}
    (value : IsReadOff (Value.textAt level) member.2) : IsReadOff (memberText level) member := by
  rintro ⟨key', value'⟩ rest rest' breaks breaks' same
  obtain ⟨key, held⟩ := member
  rw [memberText, memberText, String.toList_append, String.toList_append, String.toList_append,
    String.toList_append, List.append_assoc, List.append_assoc, List.append_assoc,
    List.append_assoc] at same
  have colon : ∀ behind : List Char, Breaks (": ".toList ++ behind) := fun behind =>
    breaks_cons _ (by decide)
  obtain ⟨rfl, behind⟩ := isReadOff_quotedString key key' _ _ (colon _) (colon _) same
  obtain ⟨rfl, left⟩ := value value' rest rest' breaks breaks' (List.append_cancel_left behind)
  exact ⟨rfl, left⟩

/-- The five forms of values. -/
inductive Form where
  | bool
  | number
  | string
  | array
  | object
  deriving DecidableEq

/-- The form of a value. -/
def Value.form : Value → Form
  | .bool _ => .bool
  | .number _ => .number
  | .string _ => .string
  | .array _ => .array
  | .object _ => .object

/-- The form of the values whose text starts with the character. -/
def Form.ofChar (c : Char) : Form :=
  if c = 't' ∨ c = 'f' then .bool
  else if c = '"' then .string
  else if c = '[' then .array
  else if c = '\x7b' then .object
  else .number

/-- The first character tells the form. -/
theorem Value.form_of_text (level : Nat) (value : Value) :
    ∃ first rest, (value.textAt level).toList = first :: rest ∧ Form.ofChar first = value.form := by
  cases value with
  | bool value =>
    rw [Value.textAt]
    cases value with
    | false => exact ⟨'f', ['a', 'l', 's', 'e'], rfl, rfl⟩
    | true => exact ⟨'t', ['r', 'u', 'e'], rfl, rfl⟩
  | number value =>
    have present : Nat.toDigits 10 value ≠ [] := Nat.toDigits_ne_nil
    have digits : (Value.textAt level (.number value)).toList = Nat.toDigits 10 value :=
      Nat.toList_repr
    refine ⟨_, _, digits.trans (List.cons_head_tail present).symm, ?_⟩
    have digit := Nat.isDigit_of_mem_toDigits (by decide) (by decide) (List.head_mem present)
    generalize (Nat.toDigits 10 value).head present = first at digit
    rw [Form.ofChar, if_neg, if_neg, if_neg, if_neg]
    · rfl
    all_goals
      intro same
      rcases same with rfl | rfl
      all_goals cases digit
  | string value => exact ⟨_, _, toList_quotedString value, rfl⟩
  | array items =>
    cases items with
    | nil =>
      rw [Value.textAt, Value.itemTexts, toList_bracketed_nil]
      exact ⟨'[', [']'], rfl, rfl⟩
    | cons item items =>
      rw [Value.textAt, itemTexts_eq_map, toList_bracketed_cons]
      exact ⟨'[', _, rfl, rfl⟩
  | object members =>
    cases members with
    | nil =>
      rw [Value.textAt, Value.memberTexts, toList_bracketed_nil]
      exact ⟨'\x7b', ['\x7d'], rfl, rfl⟩
    | cons member members =>
      rw [Value.textAt, memberTexts_eq_map, toList_bracketed_cons]
      exact ⟨'\x7b', _, rfl, rfl⟩

theorem Value.form_eq_of_text {level : Nat} {value other : Value} {rest rest' : List Char}
    (same : (value.textAt level).toList ++ rest = (other.textAt level).toList ++ rest') :
    value.form = other.form := by
  obtain ⟨first, behind, text, form⟩ := value.form_of_text level
  obtain ⟨first', behind', text', form'⟩ := other.form_of_text level
  rw [text, text'] at same
  rw [← form, ← form', (List.cons.inj same).1]

theorem isReadOff_bool (value : Bool) :
    IsReadOff (fun value : Bool => if value then "true" else "false") value := by
  rintro other rest rest' _ _ same
  cases value <;> cases other
  · exact ⟨rfl, List.append_cancel_left same⟩
  · cases (List.cons.inj same).1
  · cases (List.cons.inj same).1
  · exact ⟨rfl, List.append_cancel_left same⟩

mutual

/-- **A value is read off.** Its first character tells its form, and its parts are read off in turn. -/
theorem Value.isReadOff (level : Nat) : ∀ value : Value, IsReadOff (Value.textAt level) value
  | .bool value => by
    intro other rest rest' breaks breaks' same
    have form := Value.form_eq_of_text same
    cases other with
    | bool other =>
      obtain ⟨rfl, left⟩ := isReadOff_bool value other rest rest' breaks breaks' same
      exact ⟨rfl, left⟩
    | _ => cases form
  | .number value => by
    intro other rest rest' breaks breaks' same
    have form := Value.form_eq_of_text same
    cases other with
    | number other =>
      obtain ⟨rfl, left⟩ := isReadOff_toString value other rest rest' breaks breaks' same
      exact ⟨rfl, left⟩
    | _ => cases form
  | .string value => by
    intro other rest rest' breaks breaks' same
    have form := Value.form_eq_of_text same
    cases other with
    | string other =>
      obtain ⟨rfl, left⟩ := isReadOff_quotedString value other rest rest' breaks breaks' same
      exact ⟨rfl, left⟩
    | _ => cases form
  | .array items => by
    intro other rest rest' breaks breaks' same
    have form := Value.form_eq_of_text same
    cases other with
    | array others =>
      rw [Value.textAt, Value.textAt, itemTexts_eq_map, itemTexts_eq_map] at same
      obtain ⟨rfl, left⟩ := isReadOff_bracketed "[" rfl (by decide)
        (Value.isReadOff_items (level + 1) items) others rest rest' breaks breaks' same
      exact ⟨rfl, left⟩
    | _ => cases form
  | .object members => by
    intro other rest rest' breaks breaks' same
    have form := Value.form_eq_of_text same
    cases other with
    | object others =>
      rw [Value.textAt, Value.textAt, memberTexts_eq_map, memberTexts_eq_map] at same
      obtain ⟨rfl, left⟩ := isReadOff_bracketed "\x7b" rfl (by decide)
        (Value.isReadOff_members (level + 1) members) others rest rest' breaks breaks' same
      exact ⟨rfl, left⟩
    | _ => cases form

theorem Value.isReadOff_items (level : Nat) :
    ∀ items : List Value, ∀ item ∈ items, IsReadOff (Value.textAt level) item
  | [] => List.forall_mem_nil _
  | item :: items =>
    List.forall_mem_cons.mpr ⟨Value.isReadOff level item, Value.isReadOff_items level items⟩

theorem Value.isReadOff_members (level : Nat) :
    ∀ members : List (String × Value), ∀ member ∈ members, IsReadOff (memberText level) member
  | [] => List.forall_mem_nil _
  | (_, value) :: members => List.forall_mem_cons.mpr
    ⟨isReadOff_memberText (Value.isReadOff level value), Value.isReadOff_members level members⟩

end

/-- **Two values with one text are one value.** -/
theorem Value.fileText_injective : Function.Injective Value.fileText := by
  intro value other same
  have text : (value.textAt 0).toList ++ ['\n'] = (other.textAt 0).toList ++ ['\n'] := by
    have whole := congrArg String.toList same
    rwa [Value.fileText, Value.fileText, String.toList_append, String.toList_append] at whole
  have breaks : Breaks ['\n'] := breaks_cons _ (by decide)
  exact (Value.isReadOff 0 value other _ _ breaks breaks text).1

end SwiftBindings.Json
