/-
**The lines of a struct.**

The text of a struct is laid out line by line, and what is written between quotes is escaped, so its
lines are those it was laid out by (`Struct.lines_text`). This needs that no name and no type breaks a
line; both are made of names, which have letters, digits and underscores, and backticks around
(`Struct.wellNamed_of_registered`).

Lines are told apart by their beginnings: two texts are `Apart` where they differ in a character that
both have.
-/

import SwiftBindings.Proofs.Related
import SwiftBindings.Proofs.Swift.Literals
import SwiftBindings.Proofs.Swift.Members
import SwiftBindings.Proofs.Swift.Origins
import SwiftBindings.Swift.Layout
import SwiftBindings.Text.Cut

namespace SwiftBindings.Swift

open SwiftBindings.Text

/-! ### Characters of a text -/

/-- The text has none of the characters. -/
def Avoids (marks : List Char) (text : String) : Prop :=
  ∀ c ∈ text.toList, c ∉ marks

instance (marks : List Char) (text : String) : Decidable (Avoids marks text) :=
  List.decidableBAll (fun c => c ∉ marks) text.toList

@[simp] theorem avoids_append {marks : List Char} {first second : String} :
    Avoids marks (first ++ second) ↔ Avoids marks first ∧ Avoids marks second := by
  rw [Avoids, String.toList_append, List.forall_mem_append]
  exact Iff.rfl

theorem Avoids.mono {marks fewer : List Char} {text : String} (avoids : Avoids marks text)
    (inside : fewer ⊆ marks) : Avoids fewer text :=
  fun c member held => avoids c member (inside held)

/-- A literal has none of the control characters. -/
theorem avoids_quoted {marks : List Char} (controls : marks.all isControl = true) (text : String) :
    Avoids marks (quoted text) := fun c member held =>
  List.any_eq_false.mp (any_isControl_quoted text) c member (List.all_eq_true.mp controls c held)

/-- Characters of the generated code that no name has. -/
def punctuation : List Char := ['"', '\n', '[', ':', ' ']

/-- A plain identifier has letters, digits and underscores only. -/
theorem avoids_of_plain {marks : List Char}
    (apart : (marks.any fun c => c.isAlphanum || c == '_') = false) {text : String}
    (plain : isPlainIdentifier text = true) : Avoids marks text := by
  intro c member held
  refine List.any_eq_false.mp apart c held ?_
  rw [Bool.or_eq_true, beq_iff_eq]
  exact (isPlainIdentifier_iff.mp plain).2 c member

theorem NamedAfter.avoids {word text name : String} (named : NamedAfter word text name)
    (plain : isPlainIdentifier word = true) : Avoids punctuation name := by
  have inner : Avoids punctuation text := avoids_of_plain (by decide) (named.plain plain)
  rw [named.2, spelled]
  split
  · rw [inBackticks, avoids_append, avoids_append]
    exact ⟨⟨by decide, inner⟩, by decide⟩
  · exact inner

/-! ### Types -/

section Denotes

variable {declared : Lookup} {side : Side}

/-- A type does not break its line where the names of declarations do not. -/
theorem Denotes.avoids
    (names : ∀ name declaration, declared name = some declaration → Avoids ['\n'] name) :
    ∀ {type : SwiftType} {shape : Shape}, Denotes declared side type shape → Avoids ['\n'] type.text
  | _, _, .string | _, _, .bool | _, _, .double | _, _, .jsonValue _ | _, _, .encodable _ => by decide
  | _, _, .id found => by
    rw [SwiftType.text, avoids_append, avoids_append]
    exact ⟨⟨by decide, names _ _ found⟩, by decide⟩
  | _, _, .array inner => by
    rw [SwiftType.text, avoids_append, avoids_append]
    exact ⟨⟨by decide, inner.avoids names⟩, by decide⟩
  | _, _, .dictionary inner => by
    rw [SwiftType.text, avoids_append, avoids_append]
    exact ⟨⟨by decide, inner.avoids names⟩, by decide⟩
  | _, _, .enumeration found => names _ _ found
  | _, _, .object found _ => names _ _ found

end Denotes

theorem SwiftType.avoids_orAbsent {type : SwiftType} (avoids : Avoids ['\n'] type.text) :
    Avoids ['\n'] type.orAbsent.text := by
  rw [SwiftType.orAbsent]
  split
  · exact avoids
  · rw [SwiftType.text]
    split
    · exact avoids
    · rw [avoids_append]
      exact ⟨avoids, by decide⟩

/-! ### Names of a struct -/

/-- What the layout of a struct relies on. -/
structure Struct.WellNamed (declared : Struct) : Prop where
  /-- The name of the struct does not break a line. -/
  name : Avoids ['\n'] declared.name
  /-- The names of its properties have no punctuation. -/
  members : ∀ property ∈ declared.properties, Avoids punctuation property.name
  /-- No two of them are the same. -/
  distinct : declared.memberNames.Nodup
  /-- Their types do not break a line. -/
  types : ∀ property ∈ declared.properties, Avoids ['\n'] property.type.text
  /-- Every property of a written struct has its argument. -/
  arguments : declared.side = .encode → ∀ property ∈ declared.properties, property.argument.isSome

/-- **Registered structs are well named.** -/
theorem Struct.wellNamed_of_registered {requests : List Request} {declared : Struct}
    (registered : .struct declared ∈ (Registry.empty.answers requests).2.declarations) :
    declared.WellNamed := by
  obtain ⟨fields, rendered⟩ := Registry.exists_renderedFrom registered
  have made := rendered.made
  obtain ⟨before, path, attempt, named, same, within⟩ := rendered
  have names : declared.memberNames = freshNames generatedMembers (propertyBases fields) := by
    rw [Struct.memberNames, same, Registry.names_renderProperties]
  have single : ∀ {name : String}, isPlainIdentifier name = true → Avoids ['\n'] name :=
    fun plain => avoids_of_plain (by decide) plain
  have known : ∀ name declaration, (Registry.empty.answers requests).2.find? name = some declaration →
      Avoids ['\n'] name := by
    intro name declaration found
    have member := List.mem_of_find?_eq_some found
    have called : declaration.name = name := by simpa using List.find?_some found
    exact called ▸ single (Registry.allMade_answers requests _ member).isCapitalName.plain
  refine ⟨?_, fun property member => ?_, ?_, fun property member => ?_, fun writes property member => ?_⟩
  · rw [named]
    exact single ((isCapitalName_typeName path).candidateName attempt).plain
  · have inside : property.name ∈ declared.memberNames := List.mem_map_of_mem member
    rw [names] at inside
    obtain ⟨word, text, plain, _, after⟩ := exists_namedAfter isMemberBase_of_mem_propertyBases inside
    exact after.avoids plain
  · rw [names]
    exact (nodup_freshNames _ _).1
  · obtain ⟨field, _, taken, type, rfl, denotes⟩ := exists_of_mem_right made member
    show Avoids _ (SwiftType.text (if _ then _ else _))
    split
    · exact SwiftType.avoids_orAbsent (denotes.avoids known)
    · exact denotes.avoids known
  · obtain ⟨field, _, taken, type, rfl, denotes⟩ := exists_of_mem_right made member
    rw [writes]
    rfl

/-! ### Beginnings of lines -/

/-- The texts differ in a character that both have, counted from the front. -/
def Apart (first second : String) : Prop :=
  ∃ pair ∈ first.toList.zip second.toList, pair.1 ≠ pair.2

instance (first second : String) : Decidable (Apart first second) :=
  List.decidableBEx (fun pair : Char × Char => pair.1 ≠ pair.2) (first.toList.zip second.toList)

theorem afterMark?_append (mark rest : List Char) : afterMark? mark (mark ++ rest) = some rest := by
  induction mark with
  | nil => rfl
  | cons m mark ih => rw [List.cons_append, afterMark?, if_pos rfl, ih]

/-- A text does not start with a mark that its beginning differs from. -/
theorem afterMark?_of_apart {mark front : String} (apart : Apart mark front) (rest : List Char) :
    afterMark? mark.toList (front.toList ++ rest) = none := by
  rw [Apart] at apart
  generalize mark.toList = mark, front.toList = front at apart ⊢
  induction mark generalizing front with
  | nil => obtain ⟨_, none, _⟩ := apart; cases none
  | cons m mark ih =>
    cases front with
    | nil => obtain ⟨_, none, _⟩ := apart; cases none
    | cons c front =>
      rw [List.cons_append, afterMark?]
      split
      · rename_i same
        obtain ⟨pair, member, other⟩ := apart
        rcases List.mem_cons.mp member with rfl | member
        · exact absurd same other
        · exact ih front ⟨pair, member, other⟩
      · rfl

/-- No text that begins otherwise is the given one. -/
theorem ne_append_of_apart {text front : String} (apart : Apart text front) (rest : String) :
    text ≠ front ++ rest := by
  intro same
  have none := afterMark?_of_apart apart rest.toList
  have whole := afterMark?_append text.toList []
  rw [← String.toList_append, ← same] at none
  rw [List.append_nil, none] at whole
  cases whole

/-! ### Lines -/

/-- The lines of a text. -/
def lines (text : String) : List String :=
  (text.toList.splitOn '\n').map String.ofList

/-- Lines with line breaks between them are the lines of their text. -/
theorem lines_intercalate {list : List String} (single : ∀ line ∈ list, Avoids ['\n'] line)
    (present : list ≠ []) : lines ("\n".intercalate list) = list := by
  have chars : ∀ line ∈ list.map String.toList, '\n' ∉ line := by
    intro line member
    obtain ⟨text, inside, rfl⟩ := List.mem_map.mp member
    exact fun held => single text inside _ held (List.mem_singleton_self _)
  have mark : "\n".toList = ['\n'] := rfl
  rw [lines, String.toList_intercalate, mark,
    List.splitOn_intercalate _ chars (List.map_eq_nil_iff.not.mpr present), List.map_map]
  refine (List.map_congr_left fun line _ => ?_).trans (List.map_id list)
  exact String.ofList_toList

/-- What stands in front of the braces of a struct, behind the keyword. -/
theorem Struct.exists_opening {declared : Struct} (named : Avoids ['\n'] declared.name) :
    ∃ opening, Avoids ['\n'] opening ∧ declared.text =
      if declared.body.isEmpty then "struct " ++ opening ++ " \x7b\x7d"
      else "struct " ++ opening ++ " \x7b\n" ++ "\n".intercalate declared.body ++ "\n\x7d" := by
  obtain ⟨name, side, properties⟩ := declared
  cases side with
  | decode =>
    refine ⟨name ++ ": Decodable", avoids_append.mpr ⟨named, by decide⟩, ?_⟩
    rw [Struct.text, ← String.append_assoc]
  | encode => exact ⟨name, named, by rw [Struct.text]⟩

/-- **The lines of a struct** are those between its braces, behind one that opens it. -/
theorem Struct.lines_text {declared : Struct} (named : Avoids ['\n'] declared.name)
    (single : ∀ line ∈ declared.body, Avoids ['\n'] line) :
    ∃ head tail, lines declared.text = ("struct " ++ head) :: (declared.body ++ tail) ∧
      (tail = [] ∨ tail = ["\x7d"]) := by
  obtain ⟨opening, clean, text⟩ := Struct.exists_opening named
  have head : ∀ {ending}, Avoids ['\n'] ending → Avoids ['\n'] ("struct " ++ (opening ++ ending)) :=
    fun kept => avoids_append.mpr ⟨by decide, avoids_append.mpr ⟨clean, kept⟩⟩
  rw [text]
  by_cases empty : declared.body = []
  · refine ⟨opening ++ " \x7b\x7d", [], ?_, .inl rfl⟩
    rw [empty, List.isEmpty_nil, if_pos rfl, String.append_assoc, List.append_nil]
    have only := @lines_intercalate ["struct " ++ (opening ++ " \x7b\x7d")]
      (fun line member => List.mem_singleton.mp member ▸ head (by decide)) (List.cons_ne_nil _ _)
    rwa [String.intercalate_singleton] at only
  · refine ⟨opening ++ " \x7b", ["\x7d"], ?_, .inr rfl⟩
    have layout : "struct " ++ opening ++ " \x7b\n" ++ "\n".intercalate declared.body ++ "\n\x7d" =
        "\n".intercalate (("struct " ++ (opening ++ " \x7b")) :: (declared.body ++ ["\x7d"])) := by
      have broken : " \x7b\n" = " \x7b" ++ "\n" := rfl
      have closed : "\n\x7d" = "\n" ++ "\x7d" := rfl
      rw [String.intercalate_cons_of_ne_nil (by simp),
        String.intercalate_append_of_ne_nil empty (by simp), String.intercalate_singleton, broken, closed]
      simp only [String.append_assoc]
    rw [if_neg (by simpa using empty), layout]
    refine lines_intercalate ?_ (List.cons_ne_nil _ _)
    refine List.forall_mem_cons.mpr ⟨head (by decide), List.forall_mem_append.mpr ⟨single, ?_⟩⟩
    exact fun line member => List.mem_singleton.mp member ▸ (by decide)

end SwiftBindings.Swift
