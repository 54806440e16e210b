/-
**The names of members.**

The members of a struct or an enumeration are named in turn: each takes the name of its key, or that
name with the first number that no member before it has (`freshNames`). So no two have one name. In the
code a reserved word stands in backticks, and its number inside them. The text of a name is the name
without them, and two names have one text in one way only: a reserved word is the name of several
members, and the text of one that got a number is the name of another member
(`nodup_texts_iff`).
-/

import Mathlib.Data.List.TakeWhile
import SwiftBindings.Proofs.Swift.PlainNames

namespace SwiftBindings.Swift

open SwiftBindings.Text

/-! ### Backticks -/

/-- The text between backticks. -/
def inBackticks (text : String) : String := "\x60" ++ text ++ "\x60"

/-- A text made from a word, in backticks where the word is reserved. -/
def spelled (word text : String) : String :=
  if word ∈ reservedWords then inBackticks text else text

theorem toList_inBackticks (text : String) :
    (inBackticks text).toList = '\x60' :: text.toList ++ ['\x60'] := by
  rw [inBackticks, String.toList_append, String.toList_append]
  rfl

theorem inBackticks_injective : Function.Injective inBackticks := by
  intro first second same
  have chars := congrArg String.toList same
  rw [toList_inBackticks, toList_inBackticks, List.cons_append, List.cons_append,
    List.cons.injEq] at chars
  exact String.toList_inj.mp (List.append_cancel_right chars.2)

/-- No character of a plain identifier is a backtick. -/
theorem ne_backtick_of_plain {text : String} (plain : isPlainIdentifier text = true) {c : Char}
    (member : c ∈ text.toList) : c ≠ '\x60' := by
  rintro rfl
  rcases (isPlainIdentifier_iff.mp plain).2 _ member with letter | same
  · cases letter
  · cases same

theorem ne_inBackticks_of_plain {text : String} (plain : isPlainIdentifier text = true)
    (other : String) : text ≠ inBackticks other := by
  rintro rfl
  refine ne_backtick_of_plain plain ?_ rfl
  rw [toList_inBackticks]
  exact List.mem_cons_self

/-- What satisfies the test is trimmed at both ends of a text that nowhere does. -/
theorem trimWhile_append {test : Char → Bool} (front back : List Char) {chars : List Char}
    (before : ∀ c ∈ front, test c = true) (kept : ∀ c ∈ chars, test c = false)
    (behind : ∀ c ∈ back, test c = true) (present : chars ≠ []) :
    trimWhile test (front ++ chars ++ back) = chars := by
  have keeps : ∀ (rest : List Char) {list : List Char}, list ≠ [] → (∀ c ∈ list, test c = false) →
      (list ++ rest).dropWhile test = list ++ rest := by
    intro rest list filled none
    cases list with
    | nil => exact absurd rfl filled
    | cons c more =>
      rw [List.cons_append, List.dropWhile_cons_of_neg]
      rw [none c List.mem_cons_self]
      exact Bool.false_ne_true
  rw [trimWhile, dropEndWhile, List.append_assoc, List.dropWhile_append_of_pos before,
    keeps back present kept, List.reverse_append,
    List.dropWhile_append_of_pos fun c member => behind c (List.mem_reverse.mp member)]
  have reversed := keeps [] (List.reverse_ne_nil_iff.mpr present)
    fun c member => kept c (List.mem_reverse.mp member)
  rw [List.append_nil] at reversed
  rw [reversed, List.reverse_reverse]

/-- Backticks around an identifier are trimmed, and nothing else of it is. -/
theorem withoutBackticks_of_plain {text : String} (plain : isPlainIdentifier text = true) :
    withoutBackticks text = text ∧ withoutBackticks (inBackticks text) = text := by
  have kept : ∀ c ∈ text.toList, (c == '\x60') = false :=
    fun c member => beq_false_of_ne (ne_backtick_of_plain plain member)
  have present := ne_empty_of_isPlainIdentifier plain
  have bare := trimWhile_append [] [] (by simp) kept (by simp) present
  have ticked := trimWhile_append ['\x60'] ['\x60'] (by simp) kept (by simp) present
  rw [List.nil_append, List.append_nil] at bare
  rw [List.singleton_append] at ticked
  rw [withoutBackticks, withoutBackticks, toList_inBackticks, bare, ticked, String.ofList_toList]
  exact ⟨rfl, rfl⟩

/-- **A name without its backticks is the text it was made from.** -/
theorem withoutBackticks_spelled (word : String) {text : String}
    (plain : isPlainIdentifier text = true) : withoutBackticks (spelled word text) = text := by
  obtain ⟨bare, ticked⟩ := withoutBackticks_of_plain plain
  rw [spelled]
  split
  · exact ticked
  · exact bare

theorem escapeReserved_eq (word : String) : escapeReserved word = spelled word word := rfl

/-- A number goes inside the backticks. -/
theorem numbered_spelled (word : String) {text : String} (plain : isPlainIdentifier text = true)
    (number : Nat) : numbered (spelled word text) number = spelled word (text ++ toString number) := by
  rw [numbered, spelled, spelled]
  split
  · have chars := toList_inBackticks text
    have last : (inBackticks text).toList.getLast? = some '\x60' := by
      rw [chars, List.getLast?_concat]
    have front : (inBackticks text).toList.dropLast = '\x60' :: text.toList := by
      rw [chars, List.dropLast_concat]
    rw [if_pos last, front, ← String.toList_inj, toList_inBackticks]
    simp
  · rw [if_neg]
    intro last
    exact ne_backtick_of_plain plain (List.mem_of_getLast? last) rfl

/-! ### Fresh names -/

/-- Numbers are told apart behind every base. -/
theorem numbered_injective (base : String) : Function.Injective (numbered base) := by
  intro first second same
  rw [numbered, numbered] at same
  split at same
  · rw [String.append_left_inj, String.append_right_inj] at same
    exact toString_nat_injective same
  · exact toString_nat_injective ((String.append_right_inj base).mp same)

/-- **A fresh name** is the base where that is not taken, and else the base with the first number from
two on that makes a name not taken. -/
theorem freshName_cases (base : String) (taken : List String) :
    (base ∉ taken ∧ freshName base taken = base) ∨
      (base ∈ taken ∧ ∃ number, 2 ≤ number ∧ freshName base taken = numbered base number ∧
        numbered base number ∉ taken ∧
          ∀ other, 2 ≤ other → other < number → numbered base other ∈ taken) := by
  by_cases held : base ∈ taken
  · refine .inr ⟨held, ?_⟩
    -- More numbers are tried than names are taken, so some number makes another name.
    have some_free : ∃ index < taken.length + 1, numbered base (index + 2) ∉ taken := by
      by_contra occupied
      push Not at occupied
      have distinct : ((List.range (taken.length + 1)).map fun index =>
          numbered base (index + 2)).Nodup := by
        refine List.nodup_range.map fun first second same => ?_
        exact Nat.add_right_cancel (numbered_injective base same)
      have inside : ((List.range (taken.length + 1)).map fun index =>
          numbered base (index + 2)) ⊆ taken := by
        intro name member
        obtain ⟨index, below, rfl⟩ := List.mem_map.mp member
        exact occupied index (List.mem_range.mp below)
      have bound := (List.subperm_of_subset distinct inside).length_le
      rw [List.length_map, List.length_range] at bound
      omega
    rw [freshName, if_pos held]
    dsimp only
    rw [List.find?_map]
    cases found : (List.range (taken.length + 1)).find? ((fun candidate => decide (candidate ∉ taken)) ∘
        fun index => numbered base (index + 2)) with
    | none =>
      obtain ⟨index, below, free⟩ := some_free
      have refused := List.find?_range_eq_none.mp found index below
      simp [free] at refused
    | some index =>
      obtain ⟨free, _, earlier⟩ := List.find?_range_eq_some.mp found
      refine ⟨index + 2, Nat.le_add_left 2 index, rfl, by simpa using free, ?_⟩
      intro other two below
      obtain ⟨before, rfl⟩ := Nat.exists_eq_add_of_le' two
      simpa using earlier before (by omega)
  · exact .inl ⟨held, by rw [freshName, if_neg held]⟩

theorem freshName_not_mem (base : String) (taken : List String) : freshName base taken ∉ taken := by
  rcases freshName_cases base taken with ⟨free, same⟩ | ⟨_, number, _, same, free, _⟩
  · rwa [same]
  · rwa [same]

/-- The names for bases in turn, each fresh for the taken ones and those before it. -/
def freshNames (taken : List String) : List String → List String
  | [] => []
  | base :: rest => freshName base taken :: freshNames (taken ++ [freshName base taken]) rest

/-- **Fresh names do not repeat**, and none of them was taken. -/
theorem nodup_freshNames (taken bases : List String) :
    (freshNames taken bases).Nodup ∧ ∀ name ∈ freshNames taken bases, name ∉ taken := by
  induction bases generalizing taken with
  | nil => exact ⟨List.nodup_nil, fun _ member => absurd member List.not_mem_nil⟩
  | cons base rest ih =>
    obtain ⟨distinct, free⟩ := ih (taken ++ [freshName base taken])
    rw [freshNames]
    refine ⟨List.nodup_cons.mpr ⟨fun member => ?_, distinct⟩, ?_⟩
    · exact free _ member (List.mem_append_right _ (List.mem_singleton_self _))
    · refine List.forall_mem_cons.mpr ⟨freshName_not_mem base taken, fun name member held => ?_⟩
      exact free name member (List.mem_append_left _ held)

/-! ### What members are named after -/

/-- The name is made from the word, with a number or without. -/
def NamedAfter (word text name : String) : Prop :=
  (text = word ∨ ∃ number, 2 ≤ number ∧ text = word ++ toString number) ∧ name = spelled word text

/-- A base of member names is an identifier, in backticks where it is reserved. -/
def IsMemberBase (base : String) : Prop :=
  ∃ word, isPlainIdentifier word = true ∧ base = escapeReserved word

theorem isMemberBase_propertyName (key : String) : IsMemberBase (propertyName key) := by
  refine ⟨_, ?_, rfl⟩
  split
  · assumption
  · exact (isPlainIdentifier_camelCase key).1

theorem isMemberBase_caseName (literal : String) : IsMemberBase (caseName literal) :=
  ⟨_, (isPlainIdentifier_camelCase literal).1, rfl⟩

/-- A fresh name is named after the word of its base. -/
theorem namedAfter_freshName {word : String} (plain : isPlainIdentifier word = true)
    (taken : List String) : ∃ text, NamedAfter word text (freshName (escapeReserved word) taken) := by
  rcases freshName_cases (escapeReserved word) taken with ⟨_, same⟩ | ⟨_, number, two, same, _⟩
  · exact ⟨word, .inl rfl, same⟩
  · refine ⟨word ++ toString number, .inr ⟨number, two, rfl⟩, ?_⟩
    rw [same, escapeReserved_eq, numbered_spelled word plain]

/-- **Every name is named after the word of a base.** -/
theorem exists_namedAfter {taken bases : List String} (members : ∀ base ∈ bases, IsMemberBase base)
    {name : String} (member : name ∈ freshNames taken bases) :
    ∃ word text, isPlainIdentifier word = true ∧ escapeReserved word ∈ bases ∧
      NamedAfter word text name := by
  induction bases generalizing taken with
  | nil => cases member
  | cons base rest ih =>
    obtain ⟨⟨word, plain, rfl⟩, others⟩ := List.forall_mem_cons.mp members
    rcases List.mem_cons.mp member with rfl | member
    · obtain ⟨text, named⟩ := namedAfter_freshName plain taken
      exact ⟨word, text, plain, List.mem_cons_self, named⟩
    · obtain ⟨other, text, plain, inside, named⟩ := ih others member
      exact ⟨other, text, plain, List.mem_cons_of_mem _ inside, named⟩

section NamedAfter

variable {word text name : String}

theorem NamedAfter.plain (named : NamedAfter word text name)
    (plain : isPlainIdentifier word = true) : isPlainIdentifier text = true := by
  rcases named.1 with rfl | ⟨number, _, rfl⟩
  · exact plain
  · exact (isPlainIdentifier_numbered plain number).1

/-- The text of a name is what it is without backticks. -/
theorem NamedAfter.withoutBackticks (named : NamedAfter word text name)
    (plain : isPlainIdentifier word = true) : withoutBackticks name = text := by
  rw [named.2]
  exact withoutBackticks_spelled word (named.plain plain)

/-- No reserved word has a digit. -/
theorem isDigit_of_reserved {word : String} (reserved : word ∈ reservedWords) {c : Char}
    (member : c ∈ word.toList) : c.isDigit = false := by
  have letters : ∀ word ∈ reservedWords, word.toList.all (fun c => !c.isDigit) = true := by decide
  simpa using List.all_eq_true.mp (letters word reserved) c member

/-- The text of a name that is made from a reserved word starts with the word, and goes on with digits
only. -/
theorem NamedAfter.stem (named : NamedAfter word text name) (reserved : word ∈ reservedWords) :
    text.toList.takeWhile (fun c => !c.isDigit) = word.toList := by
  have letters : ∀ c ∈ word.toList, (!c.isDigit) = true := by
    intro c member
    rw [isDigit_of_reserved reserved member]
    rfl
  rcases named.1 with rfl | ⟨number, _, rfl⟩
  · exact List.takeWhile_eq_self_iff.mpr letters
  · rw [String.toList_append, List.takeWhile_append_of_pos letters]
    cases digits : (toString number).toList with
    | nil => rw [List.takeWhile_nil, List.append_nil]
    | cons c rest =>
      have digit : c.isDigit = true := isDigit_of_mem_toString (digits ▸ List.mem_cons_self)
      rw [List.takeWhile_cons_of_neg (by simp [digit]), List.append_nil]

/-- A reserved word is no text that another word makes with a number. -/
theorem NamedAfter.eq_of_reserved {other : String} (named : NamedAfter other text name)
    (reserved : text ∈ reservedWords) : text = other := by
  refine named.1.resolve_right ?_
  rintro ⟨number, _, rfl⟩
  obtain ⟨c, member⟩ := List.exists_mem_of_ne_nil (toString number).toList (by simp)
  have digit := isDigit_of_mem_toString member
  have inside : c ∈ (other ++ toString number).toList := by
    rw [String.toList_append]
    exact List.mem_append_right _ member
  have letter := isDigit_of_reserved reserved inside
  rw [digit] at letter
  cases letter

/-- **Two names with one text** are one name, or one of them is a reserved word with a number, in
backticks, and the other the same without. -/
theorem NamedAfter.eq_or_clash {other second : String} (named : NamedAfter word text name)
    (again : NamedAfter other text second) (reserved : word ∈ reservedWords) :
    name = second ∨ ∃ number, 2 ≤ number ∧ text = word ++ toString number ∧
      name = inBackticks text ∧ second = text := by
  have first : name = inBackticks text := by rw [named.2, spelled, if_pos reserved]
  by_cases both : other ∈ reservedWords
  · exact .inl (by rw [first, again.2, spelled, if_pos both])
  · refine .inr ?_
    have bare : second = text := by rw [again.2, spelled, if_neg both]
    rcases named.1 with rfl | ⟨number, two, same⟩
    · exact absurd (again.eq_of_reserved reserved ▸ reserved) both
    · exact ⟨number, two, same, first, bare⟩

end NamedAfter

/-! ### The numbers of a reserved word -/

section Numbers

variable {word : String} {taken : List String} {count : Nat}

/-- So many of the names are made from the reserved word: the word itself and its numbers from two
on. -/
def Counts (word : String) (taken : List String) (count : Nat) : Prop :=
  (inBackticks word ∈ taken ↔ 1 ≤ count) ∧
    ∀ number, 2 ≤ number → (inBackticks (word ++ toString number) ∈ taken ↔ number ≤ count)

theorem counts_of_clean (clean : ∀ text, inBackticks text ∉ taken) : Counts word taken 0 :=
  ⟨iff_of_false (clean word) (by decide), fun number two => iff_of_false (clean _) (by omega)⟩

/-- A further member of the reserved word takes the next number. -/
theorem Counts.next (counts : Counts word taken count) (reserved : word ∈ reservedWords)
    (plain : isPlainIdentifier word = true) :
    Counts word (taken ++ [freshName (escapeReserved word) taken]) (count + 1) := by
  have base : escapeReserved word = inBackticks word := by rw [escapeReserved, if_pos reserved]; rfl
  have numbers : ∀ number, numbered (escapeReserved word) number =
      inBackticks (word ++ toString number) := by
    intro number
    rw [escapeReserved_eq, numbered_spelled word plain, spelled, if_pos reserved]
  rcases freshName_cases (escapeReserved word) taken with
    ⟨free, same⟩ | ⟨held, number, two, same, free, before⟩
  · rw [base] at free
    have none : count = 0 := by
      by_contra some
      exact free (counts.1.mpr (by omega))
    subst none
    rw [same, base]
    refine ⟨iff_of_true (List.mem_append_right _ (List.mem_singleton_self _)) (by decide), ?_⟩
    intro number two
    rw [List.mem_append, List.mem_singleton, inBackticks_injective.eq_iff, counts.2 number two]
    have apart := append_toString_ne word number
    simp only [apart, or_false]
    omega
  · rw [base] at held
    have one := counts.1.mp held
    -- The first free number is the one behind those counted so far.
    have next : number = count + 1 := by
      rw [numbers, counts.2 number two] at free
      have all : ∀ other, 2 ≤ other → other < number → other ≤ count := by
        intro other two below
        have held := before other two below
        rwa [numbers, counts.2 other two] at held
      by_contra later
      have short := all (count + 1) (by omega) (by omega)
      omega
    rw [same, numbers]
    refine ⟨iff_of_true (List.mem_append_left _ held) (by omega), ?_⟩
    intro other two
    rw [List.mem_append, List.mem_singleton, inBackticks_injective.eq_iff, counts.2 other two,
      String.append_right_inj]
    constructor
    · rintro (below | same)
      · omega
      · rw [toString_nat_injective same]
        omega
    · intro below
      by_cases last : other = number
      · exact .inr (congrArg toString last)
      · exact .inl (by omega)

/-- The name of another member is not made from the word. -/
theorem Counts.skip (counts : Counts word taken count) (reserved : word ∈ reservedWords)
    {base : String} (member : IsMemberBase base) (other : base ≠ escapeReserved word) :
    Counts word (taken ++ [freshName base taken]) count := by
  obtain ⟨root, plain, rfl⟩ := member
  obtain ⟨text, named⟩ := namedAfter_freshName plain taken
  generalize freshName (escapeReserved root) taken = name at named ⊢
  have apart : ∀ made, NamedAfter word made (inBackticks made) → inBackticks made ≠ name := by
    rintro made from_word rfl
    by_cases also : root ∈ reservedWords
    · have same : inBackticks made = inBackticks text := by
        have own := named.2
        rwa [spelled, if_pos also] at own
      cases inBackticks_injective same
      have stems := (named.stem also).symm.trans (from_word.stem reserved)
      exact other (congrArg escapeReserved (String.toList_inj.mp stems))
    · have bare : inBackticks made = text := by
        have own := named.2
        rwa [spelled, if_neg also] at own
      exact ne_inBackticks_of_plain (named.plain plain) made bare.symm
  have spelling : ∀ made, inBackticks made = spelled word made := by
    intro made
    rw [spelled, if_pos reserved]
  refine ⟨?_, fun number two => ?_⟩
  · rw [List.mem_append, List.mem_singleton, counts.1]
    exact or_iff_left (apart word ⟨.inl rfl, spelling word⟩)
  · rw [List.mem_append, List.mem_singleton, counts.2 number two]
    exact or_iff_left (apart _ ⟨.inr ⟨number, two, rfl⟩, spelling _⟩)

/-- **The members of a reserved word are numbered one after the other.** -/
theorem counts_freshNames (reserved : word ∈ reservedWords)
    (plain : isPlainIdentifier word = true) {bases : List String}
    (members : ∀ base ∈ bases, IsMemberBase base) (counts : Counts word taken count) :
    Counts word (taken ++ freshNames taken bases) (count + bases.count (escapeReserved word)) := by
  induction bases generalizing taken count with
  | nil =>
    rw [freshNames, List.append_nil, List.count_nil, Nat.add_zero]
    exact counts
  | cons base rest ih =>
    obtain ⟨member, others⟩ := List.forall_mem_cons.mp members
    rw [freshNames, List.append_cons]
    by_cases same : base = escapeReserved word
    · rw [same, List.count_cons_self, Nat.add_comm (rest.count _), ← Nat.add_assoc]
      exact ih others (counts.next reserved plain)
    · rw [List.count_cons_of_ne same]
      exact ih others (counts.skip reserved member same)

end Numbers

/-! ### Names with one text -/

/-- The text of a reserved word with a number, as it is given to one of several members that the word
names, is also the name of a member. -/
def NumbersClash (bases names : List String) : Prop :=
  ∃ word ∈ reservedWords, ∃ number, 2 ≤ number ∧ number ≤ bases.count (escapeReserved word) ∧
    word ++ toString number ∈ names

theorem isPlainIdentifier_of_reserved : ∀ word ∈ reservedWords, isPlainIdentifier word = true := by
  decide

/-- **Which members have names with one text.** Exactly those of which one is a reserved word with a
number and the other the same without backticks. -/
theorem nodup_texts_iff {taken bases : List String} (clean : ∀ text, inBackticks text ∉ taken)
    (members : ∀ base ∈ bases, IsMemberBase base) :
    ((freshNames taken bases).map withoutBackticks).Nodup ↔
      ¬NumbersClash bases (freshNames taken bases) := by
  have distinct := (nodup_freshNames taken bases).1
  have numbers : ∀ word ∈ reservedWords, ∀ number, 2 ≤ number →
      (inBackticks (word ++ toString number) ∈ freshNames taken bases ↔
        number ≤ bases.count (escapeReserved word)) := by
    intro word reserved number two
    have counts := (counts_freshNames reserved (isPlainIdentifier_of_reserved word reserved) members
      (counts_of_clean clean)).2 number two
    rwa [List.mem_append, or_iff_right (clean _), Nat.zero_add] at counts
  constructor
  · rintro once ⟨word, reserved, number, two, below, bare⟩
    have plain := (isPlainIdentifier_numbered (isPlainIdentifier_of_reserved word reserved) number).1
    obtain ⟨free, ticked⟩ := withoutBackticks_of_plain plain
    have one := List.inj_on_of_nodup_map once ((numbers word reserved number two).mpr below) bare
      (ticked.trans free.symm)
    exact ne_inBackticks_of_plain plain _ one.symm
  · intro apart
    refine distinct.map_on fun first inside second member same => ?_
    obtain ⟨word, text, plain, _, named⟩ := exists_namedAfter members inside
    obtain ⟨other, again, plain', _, named'⟩ := exists_namedAfter members member
    rw [named.withoutBackticks plain, named'.withoutBackticks plain'] at same
    subst same
    by_cases reserved : word ∈ reservedWords
    · rcases named.eq_or_clash named' reserved with same | ⟨number, two, rfl, rfl, rfl⟩
      · exact same
      · exact absurd ⟨word, reserved, number, two, (numbers word reserved number two).mp inside,
          member⟩ apart
    · by_cases reserved' : other ∈ reservedWords
      · rcases named'.eq_or_clash named reserved' with same | ⟨number, two, rfl, rfl, rfl⟩
        · exact same.symm
        · exact absurd ⟨other, reserved', number, two,
            (numbers other reserved' number two).mp member, inside⟩ apart
      · rw [named.2, named'.2, spelled, spelled, if_neg reserved, if_neg reserved']

end SwiftBindings.Swift
