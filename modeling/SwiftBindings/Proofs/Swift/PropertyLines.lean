/-
**The lines of a property.**

In the text of a struct a property has the line that stores it, and then the line of its coding key or
the statement that sets its argument. `storedName?` and `caseKey?` read the first two. A statement is
read by its string literals, each with the code in front of it (`literals?`): it sets the arguments of a
key where every literal is the key, and code has subscripts and labels in front of literals only
(`SetsKey`).

**The main statements.** `Property.storedName?_line`, `Property.caseKey?_codingKey` and
`Argument.setsKey`: each line is read as the property that it was written for, whatever characters its
key has.
-/

import Mathlib.Data.List.TakeWhile
import SwiftBindings.Proofs.Swift.StructLines

namespace SwiftBindings.Swift

open SwiftBindings.Text

/-! ### Reading lines -/

/-- How lines begin that declare a stored property. -/
def storedHeads : List String := ["    let ", "    @ConvexFloat var ", "    @OptionalConvexFloat var "]

/-- The name of the stored property that a line declares. -/
def storedName? (line : String) : Option String :=
  storedHeads.findSome? fun head =>
    (afterMark? head.toList line.toList).map fun rest => String.ofList (rest.takeWhile (· != ':'))

/-- The name of the case that a line declares, and its raw value: the one that is given, or the name
without backticks. -/
def caseKey? (line : String) : Option (String × String) :=
  (afterMark? "        case ".toList line.toList).bind fun chars =>
    let name := String.ofList (chars.takeWhile (· != ' '))
    match chars.dropWhile (· != ' ') with
    | [] => some (name, withoutBackticks name)
    | rest =>
      match (afterMark? " = ".toList rest).bind literal? with
      | some (key, []) => some (name, key)
      | _ => none

/-- The string literals of a line, each with the code in front of it, and the code behind the last. -/
def literals? (chars : List Char) : Option (List (String × String) × String) :=
  match opened : chars.dropWhile (· != '"') with
  | [] => some ([], String.ofList chars)
  | _ :: rest =>
    match read : readLiteral .text rest with
    | none => none
    | some (key, behind) =>
      have shorter : behind.length < chars.length := by
        have inner := length_of_readLiteral read
        have dropped := List.length_dropWhile_le (· != '"') chars
        rw [opened, List.length_cons] at dropped
        omega
      (literals? behind).map fun (parts, last) =>
        ((String.ofList (chars.takeWhile (· != '"')), String.ofList key) :: parts, last)
termination_by chars.length

/-- How code ends in front of the key of an argument. -/
def keyMarks : List String := ["args[", "args.updateValue(nil, forKey: "]

/-- The statement reads the property and sets arguments under its key only: every literal is the key,
and every subscript or label is that of an argument, with a literal behind it. -/
def SetsKey (member : String × String) (statement : String) : Prop :=
  (∃ before after, statement = before ++ ("self." ++ member.1) ++ after) ∧
    ∃ parts last, literals? statement.toList = some (parts, last) ∧ parts ≠ [] ∧
      Avoids ['[', ':'] last ∧ ∀ part ∈ parts, part.2 = member.2 ∧
        ∃ lead, ∃ mark ∈ keyMarks, part.1 = lead ++ mark ∧ Avoids ['[', ':'] lead

/-! ### Readers on what is laid out -/

/-- A line that begins otherwise declares no stored property. -/
theorem storedName?_of_apart {front : String} (apart : ∀ head ∈ storedHeads, Apart head front)
    (rest : String) : storedName? (front ++ rest) = none := by
  rw [storedName?, List.findSome?_eq_none_iff]
  intro head member
  rw [String.toList_append, afterMark?_of_apart (apart head member), Option.map_none]

/-- The characters up to the first of a kind that the text in front has none of. -/
theorem takeWhile_avoids {mark : Char} {text : String} (avoids : Avoids [mark] text)
    (rest : List Char) : (text.toList ++ mark :: rest).takeWhile (· != mark) = text.toList ∧
      (text.toList ++ mark :: rest).dropWhile (· != mark) = mark :: rest := by
  have kept : ∀ c ∈ text.toList, (c != mark) = true :=
    fun c member => bne_iff_ne.mpr fun same => avoids c member (List.mem_singleton.mpr same)
  rw [List.takeWhile_append_of_pos kept, List.dropWhile_append_of_pos kept,
    List.takeWhile_cons_of_neg (by simp), List.dropWhile_cons_of_neg (by simp), List.append_nil]
  exact ⟨rfl, rfl⟩

theorem takeWhile_avoids_all {mark : Char} {text : String} (avoids : Avoids [mark] text) :
    text.toList.takeWhile (· != mark) = text.toList ∧ text.toList.dropWhile (· != mark) = [] := by
  have kept : ∀ c ∈ text.toList, (c != mark) = true :=
    fun c member => bne_iff_ne.mpr fun same => avoids c member (List.mem_singleton.mpr same)
  exact ⟨List.takeWhile_eq_self_iff.mpr kept, List.dropWhile_eq_nil_iff.mpr kept⟩

/-! ### Literals of a statement -/

/-- Code without a quote has no literals. -/
theorem literals?_code {code : String} (clean : Avoids ['"'] code) :
    literals? code.toList = some ([], code) := by
  rw [literals?]
  split
  · rw [String.ofList_toList]
  · rename_i opened
    rw [(takeWhile_avoids_all clean).2] at opened
    cases opened

/-- A literal behind code is the first of its line. -/
theorem literals?_quoted {code : String} (clean : Avoids ['"'] code) (key : String)
    (rest : String) : literals? (code ++ quoted key ++ rest).toList =
      (literals? rest.toList).map fun (parts, last) => ((code, key) :: parts, last) := by
  have chars : (code ++ quoted key ++ rest).toList =
      code.toList ++ '"' :: (escapeChars key.toList ++ '"' :: rest.toList) := by
    rw [String.toList_append, String.toList_append, toList_quoted]
    simp
  obtain ⟨taken, dropped⟩ :=
    takeWhile_avoids clean (escapeChars key.toList ++ '"' :: rest.toList)
  rw [chars, literals?]
  split
  · rename_i opened
    rw [dropped] at opened
    cases opened
  · rename_i opened
    rw [dropped] at opened
    cases opened
    split
    · rename_i read
      rw [readLiteral_escapeChars] at read
      cases read
    · rename_i read
      rw [readLiteral_escapeChars] at read
      cases read
      rw [taken, String.ofList_toList, String.ofList_toList]

/-- Pieces of code with the literal of a key behind each of them. -/
def spliced (key : String) (codes : List String) (last : String) : String :=
  codes.foldr (fun code rest => code ++ quoted key ++ rest) last

section Spliced

variable {codes : List String} {last : String}

/-- The literals of such a line are its keys. -/
theorem literals?_spliced (clean : ∀ code ∈ codes, Avoids ['"'] code) (ended : Avoids ['"'] last)
    (key : String) : literals? (spliced key codes last).toList =
      some (codes.map fun code => (code, key), last) := by
  induction codes with
  | nil => exact literals?_code ended
  | cons code rest ih =>
    obtain ⟨first, others⟩ := List.forall_mem_cons.mp clean
    rw [spliced, List.foldr_cons, literals?_quoted first, ← spliced, ih others, Option.map_some,
      List.map_cons]

/-- Its literals bring no control characters into it. -/
theorem avoids_spliced {marks : List Char} (controls : marks.all isControl = true)
    (clean : ∀ code ∈ codes, Avoids marks code) (ended : Avoids marks last) (key : String) :
    Avoids marks (spliced key codes last) := by
  induction codes with
  | nil => exact ended
  | cons code rest ih =>
    obtain ⟨first, others⟩ := List.forall_mem_cons.mp clean
    rw [spliced, List.foldr_cons, ← spliced, avoids_append, avoids_append]
    exact ⟨⟨first, avoids_quoted controls key⟩, ih others⟩

end Spliced

/-! ### Lines of a property -/

/-- The line of a stored property begins as such lines do, with its name behind. -/
theorem Property.storedLine (property : Property) : ∃ before head after,
    storedHeads = before ++ head :: after ∧ (∀ other ∈ before, Apart other head) ∧
      indent ++ property.text = head ++ (property.name ++ ": " ++ property.type.text) := by
  rw [Property.text]
  rcases property.wrapper with _ | _ | _
  · refine ⟨[], "    let ", _, rfl, by decide, ?_⟩
    have head : "    let " = indent ++ "let " := rfl
    simp only [head, String.append_assoc]
  · refine ⟨["    let "], "    @ConvexFloat var ", _, rfl, by decide, ?_⟩
    have head : "    @ConvexFloat var " = indent ++ (Wrapper.convexFloat.text ++ " var ") := rfl
    simp only [head, String.append_assoc]
  · refine ⟨["    let ", "    @ConvexFloat var "], "    @OptionalConvexFloat var ", _, rfl, by decide, ?_⟩
    have head : "    @OptionalConvexFloat var " =
      indent ++ (Wrapper.optionalConvexFloat.text ++ " var ") := rfl
    simp only [head, String.append_assoc]

/-- **The line of a stored property declares its name.** -/
theorem Property.storedName?_line {property : Property} (named : Avoids [':'] property.name) :
    storedName? (indent ++ property.text) = some property.name := by
  obtain ⟨before, head, after, heads, apart, line⟩ := property.storedLine
  have chars : (property.name ++ ": " ++ property.type.text).toList =
      property.name.toList ++ ':' :: ' ' :: property.type.text.toList := by
    rw [String.toList_append, String.toList_append]
    simp
  rw [storedName?, List.findSome?_eq_some_iff, line, String.toList_append]
  refine ⟨before, head, after, heads, ?_, fun other member => ?_⟩
  · rw [afterMark?_append, Option.map_some, chars, (takeWhile_avoids named _).1, String.ofList_toList]
  · rw [afterMark?_of_apart (apart other member), Option.map_none]

theorem Property.codingKey_eq (property : Property) : property.codingKey =
    "        case " ++ (property.name ++
      if property.isRenamed then " = " ++ quoted property.key else "") := by
  have head : "        case " = indent ++ indent ++ "case " := rfl
  rw [Property.codingKey, head]
  split <;> simp only [String.append_assoc, String.append_empty]

/-- **The line of a coding key declares the name and the key.** -/
theorem Property.caseKey?_codingKey {property : Property} (named : Avoids [' '] property.name) :
    caseKey? property.codingKey = some (property.name, property.key) := by
  rw [property.codingKey_eq, caseKey?, String.toList_append, afterMark?_append, Option.bind_some,
    String.toList_append]
  split
  · have chars : (" = " ++ quoted property.key).toList =
        ' ' :: (['=', ' '] ++ ((quoted property.key).toList ++ [])) := by
      rw [String.toList_append, List.append_nil]
      rfl
    obtain ⟨taken, dropped⟩ :=
      takeWhile_avoids named (['=', ' '] ++ ((quoted property.key).toList ++ []))
    rw [chars, taken, dropped, String.ofList_toList]
    have behind : afterMark? " = ".toList (' ' :: (['=', ' '] ++ ((quoted property.key).toList ++ []))) =
        some ((quoted property.key).toList ++ []) := afterMark?_append _ _
    dsimp only
    rw [behind, Option.bind_some, literal?_quoted]
  · rename_i same
    have kept : withoutBackticks property.name = property.key := by
      simpa [Property.isRenamed] using same
    obtain ⟨taken, dropped⟩ := takeWhile_avoids_all named
    have none : "".toList = [] := rfl
    rw [none, List.append_nil, taken, dropped, String.ofList_toList]
    exact congrArg (fun key => some (property.name, key)) kept

/-! ### Statements -/

/-- Characters that the code of a statement has in front of a key only, and those that end it. -/
def keyPunctuation : List Char := ['"', '\n', '[', ':']

/-- The code of an encoding stands around its value. -/
theorem Encoding.text_around : ∀ encoding : Encoding, ∃ before after,
    (∀ value, encoding.text value = before ++ value ++ after) ∧
      Avoids keyPunctuation before ∧ Avoids keyPunctuation after
  | .direct => ⟨"", "", fun value => by simp, by decide, by decide⟩
  | .rawValue => ⟨"", ".rawValue", fun value => by simp, by decide, by decide⟩
  | .nested => ⟨"", ".toArgs()", fun value => by simp, by decide, by decide⟩
  | .array element => by
    obtain ⟨before, after, around, clean, kept⟩ := element.text_around
    refine ⟨"encodeArray(", ") \x7b " ++ (before ++ "$0" ++ after) ++ " \x7d", fun value => ?_,
      by decide, ?_⟩
    · simp only [Encoding.text_array, around, String.append_assoc]
    · simp only [avoids_append]
      exact ⟨⟨by decide, ⟨clean, by decide⟩, kept⟩, by decide⟩
  | .record element => by
    obtain ⟨before, after, around, clean, kept⟩ := element.text_around
    refine ⟨"encodeRecord(", ") \x7b " ++ (before ++ "$0" ++ after) ++ " \x7d", fun value => ?_,
      by decide, ?_⟩
    · simp only [Encoding.text_record, around, String.append_assoc]
    · simp only [avoids_append]
      exact ⟨⟨by decide, ⟨clean, by decide⟩, kept⟩, by decide⟩

/-- A line with the key behind each of its parts. -/
def keyedLine (key : String) (parts : List (String × String)) (last : String) : String :=
  parts.foldr (fun part rest => part.1 ++ part.2 ++ quoted key ++ rest) last

/-- A part of a statement ends where its key follows. -/
def IsKeyedPart (part : String × String) : Prop :=
  Avoids keyPunctuation part.1 ∧ part.2 ∈ keyMarks

theorem IsKeyedPart.avoids {part : String × String} (keyed : IsKeyedPart part) :
    Avoids ['"', '\n'] (part.1 ++ part.2) := by
  have marks : ∀ mark ∈ keyMarks, Avoids ['"', '\n'] mark := by decide
  exact avoids_append.mpr ⟨keyed.1.mono (by decide), marks _ keyed.2⟩

theorem keyedLine_eq (key : String) (parts : List (String × String)) (last : String) :
    keyedLine key parts last = spliced key (parts.map fun part => part.1 ++ part.2) last := by
  rw [keyedLine, spliced, List.foldr_map]

section KeyedLine

variable {key last : String} {parts : List (String × String)}
  (keyed : ∀ part ∈ parts, IsKeyedPart part) (clean : Avoids keyPunctuation last)

include keyed clean

/-- The literals of such a line are its keys. -/
theorem literals?_keyedLine : literals? (keyedLine key parts last).toList =
    some (parts.map fun part => (part.1 ++ part.2, key), last) := by
  have codes : ∀ code ∈ parts.map fun part => part.1 ++ part.2, Avoids ['"'] code :=
    List.forall_mem_map.mpr fun part member => (keyed part member).avoids.mono (by decide)
  rw [keyedLine_eq, literals?_spliced codes (clean.mono (by decide)), List.map_map]
  rfl

theorem avoids_keyedLine : Avoids ['\n'] (keyedLine key parts last) := by
  have codes : ∀ code ∈ parts.map fun part => part.1 ++ part.2, Avoids ['\n'] code :=
    List.forall_mem_map.mpr fun part member => (keyed part member).avoids.mono (by decide)
  rw [keyedLine_eq]
  exact avoids_spliced (by decide) codes (clean.mono (by decide)) key

end KeyedLine

/-- **The line of a statement** has the key in one place or in two. -/
theorem Argument.line_layout {property : Property} (named : Avoids keyPunctuation property.name)
    (argument : Argument) :
    ∃ parts last, indent ++ indent ++ argument.statement property = keyedLine property.key parts last ∧
      parts ≠ [] ∧ (∀ part ∈ parts, IsKeyedPart part) ∧ Avoids keyPunctuation last := by
  obtain ⟨encoding, presence⟩ := argument
  obtain ⟨before, after, around, clean, kept⟩ := encoding.text_around
  have member : Avoids keyPunctuation ("self." ++ property.name) := avoids_append.mpr ⟨by decide, named⟩
  have bound : IsKeyedPart ("        if let value = " ++ ("self." ++ property.name) ++ " \x7b ", "args[") :=
    ⟨avoids_append.mpr ⟨avoids_append.mpr ⟨by decide, member⟩, by decide⟩, List.mem_cons_self⟩
  have value : ∀ {text}, Avoids keyPunctuation text →
      Avoids keyPunctuation ("] = " ++ (before ++ text ++ after)) := by
    intro text held
    simp only [avoids_append]
    exact ⟨by decide, ⟨clean, held⟩, kept⟩
  have margin : "        " = indent ++ indent := rfl
  have head : "        if let value = " = indent ++ indent ++ "if let value = " := rfl
  have opened : " \x7b args[" = " \x7b " ++ "args[" := rfl
  have unset : " else \x7b args.updateValue(nil, forKey: " =
    " else \x7b " ++ "args.updateValue(nil, forKey: " := rfl
  cases presence with
  | required =>
    refine ⟨[("        ", "args[")], "] = " ++ (before ++ ("self." ++ property.name) ++ after),
      ?_, List.cons_ne_nil _ _, ?_, value member⟩
    · simp only [Argument.statement, keyedLine, List.foldr_cons, List.foldr_nil, around, margin,
        String.append_assoc]
    · exact List.forall_mem_singleton.mpr ⟨by decide, by decide⟩
  | optional =>
    refine ⟨[("        if let value = " ++ ("self." ++ property.name) ++ " \x7b ", "args[")],
      "] = " ++ (before ++ "value" ++ after) ++ " \x7d", ?_, List.cons_ne_nil _ _,
      List.forall_mem_singleton.mpr bound, avoids_append.mpr ⟨value (by decide), by decide⟩⟩
    simp only [Argument.statement, keyedLine, List.foldr_cons, List.foldr_nil, around, head, opened,
      String.append_assoc]
  | nullable =>
    refine ⟨[("        if let value = " ++ ("self." ++ property.name) ++ " \x7b ", "args["),
        ("] = " ++ (before ++ "value" ++ after) ++ (" \x7d" ++ " else \x7b "),
          "args.updateValue(nil, forKey: ")],
      ") \x7d", ?_, List.cons_ne_nil _ _, ?_, by decide⟩
    · simp only [Argument.statement, keyedLine, List.foldr_cons, List.foldr_nil, around, head, opened,
        unset, String.append_assoc]
    · refine List.forall_mem_cons.mpr ⟨bound, List.forall_mem_singleton.mpr ⟨?_, ?_⟩⟩
      · exact avoids_append.mpr ⟨value (by decide), by decide⟩
      · exact List.mem_cons_of_mem _ List.mem_cons_self

/-- How statements begin. -/
def statementHeads : List String := ["args[", "if let "]

/-- A statement begins as statements do, and reads its property. -/
theorem Argument.statement_begins (property : Property) (argument : Argument) :
    ∃ head ∈ statementHeads, ∃ before after,
      argument.statement property = head ++ (before ++ ("self." ++ property.name) ++ after) := by
  obtain ⟨encoding, presence⟩ := argument
  obtain ⟨before, after, around, _⟩ := encoding.text_around
  have value : "if let value = " = "if let " ++ "value = " := rfl
  cases presence with
  | required =>
    refine ⟨"args[", by decide, quoted property.key ++ "] = " ++ before, after, ?_⟩
    simp only [Argument.statement, around, String.append_assoc]
  | optional =>
    refine ⟨"if let ", by decide, "value = ", " \x7b args[" ++ quoted property.key ++ "] = " ++
      encoding.text "value" ++ " \x7d", ?_⟩
    simp only [Argument.statement, value, String.append_assoc]
  | nullable =>
    refine ⟨"if let ", by decide, "value = ", " \x7b args[" ++ quoted property.key ++ "] = " ++
      encoding.text "value" ++ " \x7d" ++ " else \x7b args.updateValue(nil, forKey: " ++
      quoted property.key ++ ") \x7d", ?_⟩
    simp only [Argument.statement, value, String.append_assoc]

/-- **The line of a statement sets the argument of its property.** -/
theorem Argument.setsKey {property : Property} (named : Avoids keyPunctuation property.name)
    (argument : Argument) :
    SetsKey (property.name, property.key) (indent ++ indent ++ argument.statement property) := by
  obtain ⟨head, _, before, after, reads⟩ := argument.statement_begins property
  obtain ⟨parts, last, layout, present, keyed, clean⟩ := argument.line_layout named
  refine ⟨⟨indent ++ indent ++ head ++ before, after, ?_⟩,
    parts.map fun part => (part.1 ++ part.2, property.key), last, ?_, ?_, clean.mono (by decide), ?_⟩
  · simp only [reads, String.append_assoc]
  · rw [layout]
    exact literals?_keyedLine keyed clean
  · exact List.map_eq_nil_iff.not.mpr present
  · intro part member
    obtain ⟨origin, inside, rfl⟩ := List.mem_map.mp member
    exact ⟨rfl, origin.1, origin.2, (keyed origin inside).2, rfl, (keyed origin inside).1.mono (by decide)⟩

end SwiftBindings.Swift
