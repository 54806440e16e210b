/-
**Text from outside in a generated file.**

The entries of the header and the tables of markers reach a file as they are, inside comments; the keys
of properties and the values of cases reach it escaped, inside string literals. A bare file has none of
this text (`File.bare`). The text of a file is contained where it has one line for each of its comments
and, outside comments and literals, the code of the bare file (`File.IsContained`). What is left are the
names, which are plain identifiers.

Escaping does its part whatever the keys and values are. **The main statement** is what remains of the
comments, `File.isContained_iff`: a file is contained exactly where no entry of its header and no table
of a marker has a line break.
-/

import SwiftBindings.Proofs.Swift.CodeLines
import SwiftBindings.Proofs.Swift.EmittedKeys
import SwiftBindings.Proofs.Swift.Identifiers

namespace SwiftBindings.Swift

/-! ### Names -/

/-- The name is a plain identifier, in backticks or without. -/
def IsSpelled (name : String) : Prop :=
  ∃ text, isPlainIdentifier text = true ∧ (name = text ∨ name = inBackticks text)

theorem NamedAfter.isSpelled {word text name : String} (named : NamedAfter word text name)
    (plain : isPlainIdentifier word = true) : IsSpelled name := by
  refine ⟨text, named.plain plain, ?_⟩
  rw [named.2, spelled]
  split
  · exact .inr rfl
  · exact .inl rfl

theorem IsSpelled.avoids {name : String} (spelled : IsSpelled name) : Avoids codeMarks name := by
  obtain ⟨text, plain, rfl | rfl⟩ := spelled
  · exact avoids_of_plain (by decide) plain
  · rw [inBackticks, avoids_append, avoids_append]
    exact ⟨⟨by decide, avoids_of_plain (by decide) plain⟩, by decide⟩

/-- There is something between the backticks. -/
theorem IsSpelled.withoutBackticks_ne {name : String} (spelled : IsSpelled name) :
    withoutBackticks name ≠ "" := by
  obtain ⟨text, plain, same⟩ := spelled
  obtain ⟨bare, ticked⟩ := withoutBackticks_of_plain plain
  have inner : withoutBackticks name = text := by
    rcases same with rfl | rfl
    · exact bare
    · exact ticked
  rw [inner]
  rintro rfl
  cases plain

/-- The name that is mentioned. -/
def Mention.names : Mention → List String
  | .jsonValue => []
  | .marker name | .named name => [name]

/-- The names in a type. -/
def SwiftType.names (type : SwiftType) : List String :=
  type.mentions.flatMap Mention.names

/-- The names in a declaration. -/
def Declaration.names (declaration : Declaration) : List String :=
  declaration.name :: (declaration.memberNames ++ declaration.mentions.flatMap Mention.names)

/-- The names in an alias. -/
def Alias.names (other : Alias) : List String :=
  other.name :: other.target.names

/-- The names in a file. -/
def File.names (file : File) : List String :=
  file.declarations.flatMap Declaration.names ++ file.aliases.flatMap Alias.names

/-! ### Bare files -/

/-- The property without the key that it is renamed from. -/
def Property.bare (property : Property) : Property :=
  { property with key := if property.isRenamed then "" else property.key }

@[simp] theorem Property.name_bare (property : Property) : property.bare.name = property.name := by
  cases property
  rfl

@[simp] theorem Property.text_bare (property : Property) : property.bare.text = property.text := by
  cases property
  rfl

@[simp] theorem Property.argument_bare (property : Property) :
    property.bare.argument = property.argument := by
  cases property
  rfl

/-- The struct without keys. -/
def Struct.bare (declared : Struct) : Struct :=
  { declared with properties := declared.properties.map Property.bare }

/-- The case without its value. -/
def Case.bare (item : Case) : Case :=
  { item with rawValue := "" }

/-- The enumeration without values. -/
def Enumeration.bare (declared : Enumeration) : Enumeration :=
  { declared with cases := declared.cases.map Case.bare }

/-- The marker without its table. -/
def Marker.bare (declared : Marker) : Marker :=
  { declared with table := "" }

/-- The file without the text that comes from outside, but for names. -/
def File.bare (file : File) : File :=
  { file with
    header := file.header.map fun _ => ""
    markers := file.markers.map Marker.bare
    enumerations := file.enumerations.map Enumeration.bare
    structs := file.structs.map Struct.bare }

/-! ### Comments of a file -/

/-- The comment of a marker. -/
def Marker.comment (declared : Marker) : String :=
  "/// Marker for the \x60" ++ declared.table ++ "\x60 table."

/-- The comment over a section, left out when it is empty. -/
def titleComments {Item : Type} (title : String) (items : List Item) : List String :=
  if items.isEmpty then [] else ["// MARK: - " ++ title]

/-- The comments of a file in order, each meant to stand on a line of its own. -/
def File.comments (file : File) : List String :=
  file.header.map headerLine ++
    ["// MARK: - Support", "/// Identifier of a row in the table named by \x60Table\x60."] ++
  (if file.usesJsonValue then ["/// Value whose shape is not known statically."] else []) ++
  (titleComments "Tables" file.markers ++ file.markers.map Marker.comment) ++
  titleComments "Enums" file.enumerations ++
  titleComments "Structs" file.structs ++
  titleComments "Return Types" file.aliases

/-- Text from outside stays inside comments, literals and identifiers. -/
structure File.IsContained (file : File) : Prop where
  /-- The lines that are comments are the comments of the file, one line each. -/
  comments : commentLines file.text = file.comments
  /-- Outside comments and literals the text is that of the bare file. -/
  code : codeOf file.text = codeOf file.bare.text
  /-- Every literal ends on its line. -/
  closed : none ∉ codeOf file.text
  /-- Names are identifiers. -/
  named : ∀ name ∈ file.names, IsSpelled name

/-! ### Types and properties -/

/-- A type has no character that ends code where its names are identifiers. -/
theorem SwiftType.avoids_text : ∀ {type : SwiftType}, (∀ name ∈ type.names, IsSpelled name) →
    Avoids codeMarks type.text
  | .string, _ | .bool, _ | .double, _ | .jsonValue, _ | .encodable, _ => by decide
  | .named name, spelled => (spelled name (List.mem_singleton_self name)).avoids
  | .id marker, spelled => by
    rw [SwiftType.text, avoids_append, avoids_append]
    exact ⟨⟨by decide, (spelled marker (List.mem_singleton_self marker)).avoids⟩, by decide⟩
  | .array element, spelled => by
    rw [SwiftType.text, avoids_append, avoids_append]
    exact ⟨⟨by decide, element.avoids_text spelled⟩, by decide⟩
  | .dictionary value, spelled => by
    rw [SwiftType.text, avoids_append, avoids_append]
    exact ⟨⟨by decide, value.avoids_text spelled⟩, by decide⟩
  | .optional wrapped, spelled => by
    rw [SwiftType.text]
    split
    · exact wrapped.avoids_text spelled
    · exact avoids_append.mpr ⟨wrapped.avoids_text spelled, by decide⟩

/-- The code of an encoding has no quote, slash or line break of its own. -/
theorem Encoding.avoids_text {value : String} (clean : Avoids codeMarks value) :
    ∀ encoding : Encoding, Avoids codeMarks (encoding.text value)
  | .direct => clean
  | .rawValue | .nested => avoids_append.mpr ⟨clean, by decide⟩
  | .array element | .record element => by
    simp only [Encoding.text_array, Encoding.text_record, avoids_append]
    exact ⟨⟨⟨⟨by decide, clean⟩, by decide⟩, element.avoids_text (by decide)⟩, by decide⟩

/-- The name of a property, and those in its type, are identifiers. -/
structure Property.IsNamed (property : Property) : Prop where
  name : IsSpelled property.name
  type : ∀ name ∈ property.type.names, IsSpelled name

section Property

variable {property : Property} (named : property.IsNamed)

include named

/-- A bare property has a coding key where the property has one: no name is empty. -/
theorem Property.isRenamed_bare : property.bare.isRenamed = property.isRenamed := by
  cases renamed : property.isRenamed with
  | false =>
    have kept : property.bare = property := by
      rw [Property.bare, renamed, if_neg Bool.false_ne_true]
    rw [kept, renamed]
  | true =>
    have key : property.bare.key = "" := by rw [Property.bare, renamed, if_pos rfl]
    rw [Property.isRenamed, key, property.name_bare, bne_iff_ne]
    exact named.name.withoutBackticks_ne

theorem Property.encloses_stored :
    Encloses (indent ++ property.text) (indent ++ property.bare.text) [] := by
  obtain ⟨before, head, after, heads, _, line⟩ := property.storedLine
  have fixed : ∀ head ∈ storedHeads, Avoids codeMarks head := by decide
  have clean : Avoids codeMarks (indent ++ property.text) := by
    simp only [line, avoids_append]
    exact ⟨fixed head (heads ▸ List.mem_append_right _ List.mem_cons_self), ⟨named.name.avoids, by decide⟩,
      SwiftType.avoids_text named.type⟩
  rw [property.text_bare]
  exact .plain clean

theorem Property.encloses_codingKey : Encloses property.codingKey property.bare.codingKey [] := by
  have front : Avoids codeMarks ("        case " ++ property.name) :=
    avoids_append.mpr ⟨by decide, named.name.avoids⟩
  rw [property.codingKey_eq, property.bare.codingKey_eq, Property.isRenamed_bare named,
    property.name_bare]
  split
  · have line : ∀ key, "        case " ++ (property.name ++ (" = " ++ quoted key)) =
        spliced key ["        case " ++ property.name ++ " = "] "" := by
      intro key
      simp only [spliced, List.foldr_cons, List.foldr_nil, String.append_assoc, String.append_empty]
    rw [line, line]
    exact .spliced _ _ (List.forall_mem_singleton.mpr (avoids_append.mpr ⟨front, by decide⟩))
      (by decide) _ _
  · rw [String.append_empty]
    exact .plain front

/-- **A statement is code around the key**, in one place or in two. -/
theorem Argument.encloses_statement (argument : Argument) :
    Encloses (indent ++ indent ++ argument.statement property)
      (indent ++ indent ++ argument.statement property.bare) [] := by
  obtain ⟨encoding, presence⟩ := argument
  have member : Avoids codeMarks ("self." ++ property.name) :=
    avoids_append.mpr ⟨by decide, named.name.avoids⟩
  have bound : Avoids codeMarks
      (indent ++ indent ++ "if let value = " ++ ("self." ++ property.name) ++ " \x7b args[") :=
    avoids_append.mpr ⟨avoids_append.mpr ⟨by decide, member⟩, by decide⟩
  have value : ∀ text, Avoids codeMarks text → Avoids codeMarks ("] = " ++ encoding.text text) :=
    fun text clean => avoids_append.mpr ⟨by decide, encoding.avoids_text clean⟩
  have assigned := value "value" (by decide)
  cases presence with
  | required =>
    have line := Encloses.spliced [indent ++ indent ++ "args["] _
      (List.forall_mem_singleton.mpr (by decide)) (value _ member) property.key property.bare.key
    simpa only [spliced, List.foldr_cons, List.foldr_nil, Argument.statement,
      property.name_bare, String.append_assoc] using line
  | optional =>
    have closed : Avoids codeMarks ("] = " ++ encoding.text "value" ++ " \x7d") :=
      avoids_append.mpr ⟨assigned, by decide⟩
    have line := Encloses.spliced _ _ (List.forall_mem_singleton.mpr bound) closed
      property.key property.bare.key
    simpa only [spliced, List.foldr_cons, List.foldr_nil, Argument.statement,
      property.name_bare, String.append_assoc] using line
  | nullable =>
    have between : Avoids codeMarks
        ("] = " ++ encoding.text "value" ++ " \x7d" ++ " else \x7b args.updateValue(nil, forKey: ") :=
      avoids_append.mpr ⟨avoids_append.mpr ⟨assigned, by decide⟩, by decide⟩
    have line := Encloses.spliced _ ") \x7d"
      (List.forall_mem_cons.mpr ⟨bound, List.forall_mem_singleton.mpr between⟩) (by decide)
      property.key property.bare.key
    simpa only [spliced, List.foldr_cons, List.foldr_nil, Argument.statement,
      property.name_bare, String.append_assoc] using line

end Property

/-! ### Declarations -/

/-- Lines between braces. -/
theorem Encloses.braced {opening : String} {body bares : List String} (clean : Avoids codeMarks opening)
    (lines : EnclosesAll body bares []) :
    Encloses (opening ++ "\n" ++ "\n".intercalate body ++ "\n\x7d")
      (opening ++ "\n" ++ "\n".intercalate bares ++ "\n\x7d") [] := by
  have closing : Encloses "\x7d" "\x7d" [] := .plain (by decide)
  have text : Encloses _ _ [] := ((Encloses.plain clean).below lines.lines).below closing
  have ending : "\n\x7d" = "\n" ++ "\x7d" := rfl
  simpa only [ending, String.append_assoc] using text

/-- Lines between braces, which stand side by side where there are none. -/
theorem Encloses.members {opening : String} {body bares : List String} (clean : Avoids codeMarks opening)
    (lines : EnclosesAll body bares []) :
    Encloses
      (if body.isEmpty then opening ++ " \x7b\x7d"
        else opening ++ " \x7b\n" ++ "\n".intercalate body ++ "\n\x7d")
      (if bares.isEmpty then opening ++ " \x7b\x7d"
        else opening ++ " \x7b\n" ++ "\n".intercalate bares ++ "\n\x7d") [] := by
  rw [lines.isEmpty_eq]
  split
  · exact .plain (avoids_append.mpr ⟨clean, by decide⟩)
  · have opened : Avoids codeMarks (opening ++ " \x7b") := avoids_append.mpr ⟨clean, by decide⟩
    have broken : " \x7b\n" = " \x7b" ++ "\n" := rfl
    simpa only [broken, String.append_assoc] using Encloses.braced opened lines

theorem codingKeyLines_eq (properties : List Property) : codingKeyLines properties =
    if properties.any Property.isRenamed then
      ["", codingKeysOpening] ++ properties.map Property.codingKey ++ [memberClosing]
    else [] := by
  rw [codingKeyLines]
  rfl

section Properties

variable {properties : List Property} (named : ∀ property ∈ properties, property.IsNamed)

include named

theorem enclosesAll_codingKeyLines :
    EnclosesAll (codingKeyLines properties) (codingKeyLines (properties.map Property.bare)) [] := by
  have renamed : (properties.map Property.bare).any Property.isRenamed =
      properties.any Property.isRenamed := by
    have flags : (properties.map Property.bare).map Property.isRenamed =
        properties.map Property.isRenamed := by
      rw [List.map_map, Function.comp_def]
      exact List.map_congr_left fun property member => Property.isRenamed_bare (named property member)
    simpa only [List.any_map, Function.id_comp] using congrArg (List.any · id) flags
  rw [codingKeyLines_eq, codingKeyLines_eq, renamed, List.map_map, Function.comp_def]
  split
  · have keys := EnclosesAll.code properties fun property member =>
      Property.encloses_codingKey (named property member)
    have opening : EnclosesAll ["", codingKeysOpening] ["", codingKeysOpening] [] := .plain (by decide)
    have closing : EnclosesAll [memberClosing] [memberClosing] [] := .plain (by decide)
    exact (opening.append keys).append closing
  · exact .nil

theorem enclosesAll_statementLines :
    EnclosesAll (statementLines properties) (statementLines (properties.map Property.bare)) [] := by
  induction properties with
  | nil => exact .nil
  | cons property rest ih =>
    obtain ⟨first, others⟩ := List.forall_mem_cons.mp named
    have lines := ih others
    rw [statementLines, statementLines, List.map_cons, List.filterMap_cons, List.filterMap_cons,
      property.argument_bare]
    cases property.argument with
    | none => exact lines
    | some argument => exact .cons (Argument.encloses_statement first argument) lines

theorem enclosesAll_argumentLines :
    EnclosesAll (argumentLines properties) (argumentLines (properties.map Property.bare)) [] := by
  have lines := enclosesAll_statementLines named
  have none : statementLines (properties.map Property.bare) = [] ↔ statementLines properties = [] := by
    rw [← List.isEmpty_iff, ← lines.isEmpty_eq, List.isEmpty_iff]
  rw [argumentLines_eq, argumentLines_eq]
  simp only [none]
  have opening : Encloses functionOpening functionOpening [] := .plain (by decide)
  have closing : EnclosesAll [memberClosing] [memberClosing] [] := .plain (by decide)
  have declaring : Encloses statementsOpening statementsOpening [] := .plain (by decide)
  have returning : EnclosesAll [statementsClosing] [statementsClosing] [] := .plain (by decide)
  split
  · have unset : EnclosesAll ["        [:]"] ["        [:]"] [] := .plain (by decide)
    exact .cons opening (unset.append closing)
  · exact .cons opening (.append (.cons declaring (lines.append returning)) closing)

end Properties

/-- The names in a struct are its own and those in its properties. -/
theorem Struct.named {declared : Struct}
    (spelled : ∀ name ∈ (Declaration.struct declared).names, IsSpelled name) :
    IsSpelled declared.name ∧ ∀ property ∈ declared.properties, property.IsNamed := by
  obtain ⟨own, others⟩ := List.forall_mem_cons.mp spelled
  obtain ⟨members, types⟩ := List.forall_mem_append.mp others
  refine ⟨own, fun property member => ⟨members _ (List.mem_map_of_mem member), fun name inside => ?_⟩⟩
  obtain ⟨mention, held, here⟩ := List.mem_flatMap.mp inside
  exact types name (List.mem_flatMap.mpr
    ⟨mention, List.mem_flatMap.mpr ⟨property, member, held⟩, here⟩)

theorem Struct.enclosesAll_body {declared : Struct}
    (named : ∀ property ∈ declared.properties, property.IsNamed) :
    EnclosesAll declared.body declared.bare.body [] := by
  have stored := EnclosesAll.code declared.properties fun property member =>
    Property.encloses_stored (named property member)
  obtain ⟨name, side, properties⟩ := declared
  rw [Struct.body, Struct.body, Struct.bare, List.map_map]
  cases side with
  | decode => exact stored.append (enclosesAll_codingKeyLines named)
  | encode =>
    have gap : ∀ empty : Bool, EnclosesAll (if empty then [] else [""]) (if empty then [] else [""]) [] :=
      fun empty => .plain (by cases empty <;> decide)
    have lines := (stored.append (gap properties.isEmpty)).append (enclosesAll_argumentLines named)
    simp only [List.isEmpty_map]
    exact lines

theorem Struct.encloses {declared : Struct}
    (spelled : ∀ name ∈ (Declaration.struct declared).names, IsSpelled name) :
    Encloses declared.text declared.bare.text [] := by
  obtain ⟨own, named⟩ := Struct.named spelled
  have body := Struct.enclosesAll_body named
  have front : Avoids codeMarks ("struct " ++ declared.name) := avoids_append.mpr ⟨by decide, own.avoids⟩
  obtain ⟨name, side, properties⟩ := declared
  cases side with
  | decode => exact .members (avoids_append.mpr ⟨front, by decide⟩) body
  | encode => exact .members front body

theorem Enumeration.encloses {declared : Enumeration}
    (spelled : ∀ name ∈ (Declaration.enumeration declared).names, IsSpelled name) :
    Encloses declared.text declared.bare.text [] := by
  obtain ⟨own, others⟩ := List.forall_mem_cons.mp spelled
  have line : ∀ item ∈ declared.cases,
      Encloses (indent ++ "case " ++ item.name ++ " = " ++ quoted item.rawValue)
        (indent ++ "case " ++ item.name ++ " = " ++ quoted item.bare.rawValue) [] := by
    intro item member
    have held : IsSpelled item.name := others _ (List.mem_append_left _ (List.mem_map_of_mem member))
    have front : Avoids codeMarks (indent ++ "case " ++ item.name ++ " = ") :=
      avoids_append.mpr ⟨avoids_append.mpr ⟨by decide, held.avoids⟩, by decide⟩
    have same := Encloses.spliced _ "" (List.forall_mem_singleton.mpr front) (by decide)
      item.rawValue item.bare.rawValue
    simpa only [spliced, List.foldr_cons, List.foldr_nil, String.append_empty] using same
  have opening : Avoids codeMarks ("enum " ++ declared.name ++ ": String, Codable, CaseIterable \x7b") :=
    avoids_append.mpr ⟨avoids_append.mpr ⟨by decide, own.avoids⟩, by decide⟩
  have braced := Encloses.braced opening (EnclosesAll.code declared.cases line)
  have broken : ": String, Codable, CaseIterable \x7b\n" =
    ": String, Codable, CaseIterable \x7b" ++ "\n" := rfl
  have bare : declared.bare.cases.map (fun item =>
      indent ++ "case " ++ item.name ++ " = " ++ quoted item.rawValue) =
        declared.cases.map fun item =>
          indent ++ "case " ++ item.name ++ " = " ++ quoted item.bare.rawValue := by
    rw [Enumeration.bare, List.map_map]
    rfl
  have same : declared.bare.name = declared.name := rfl
  rw [Enumeration.text, Enumeration.text, bare, broken, same]
  simpa only [String.append_assoc] using braced

theorem Marker.isComment_comment (declared : Marker) : isComment declared.comment = true := by
  have front : declared.comment = "//" ++ "/ Marker for the \x60" ++ declared.table ++ "\x60 table." := rfl
  rw [front, String.append_assoc, String.append_assoc]
  exact isComment_append _

theorem Marker.isSingleLine_comment (declared : Marker) :
    IsSingleLine declared.comment ↔ IsSingleLine declared.table := by
  have parts : declared.comment = "/// Marker for the \x60" ++ declared.table ++ "\x60 table." := rfl
  rw [parts, isSingleLine_append, isSingleLine_append]
  exact ⟨fun single => single.1.2, fun single => ⟨⟨by decide, single⟩, by decide⟩⟩

/-- The comment of a marker, and its code below. -/
theorem Marker.text_eq (declared : Marker) :
    declared.text = declared.comment ++ "\n" ++ ("enum " ++ declared.name ++ " \x7b\x7d") := by
  have broken : declared.text = "/// Marker for the \x60" ++ declared.table ++
    ("\x60 table." ++ "\n" ++ "enum ") ++ declared.name ++ " \x7b\x7d" := rfl
  have parts : declared.comment = "/// Marker for the \x60" ++ declared.table ++ "\x60 table." := rfl
  rw [broken, parts]
  simp only [String.append_assoc]

theorem Marker.encloses {declared : Marker} (spelled : IsSpelled declared.name)
    (single : IsSingleLine declared.table) :
    Encloses declared.text declared.bare.text [declared.comment] := by
  have empty : IsSingleLine "" := by decide
  have comment := Encloses.comment (declared.isSingleLine_comment.mpr single)
    (declared.bare.isSingleLine_comment.mpr empty)
    declared.isComment_comment declared.bare.isComment_comment
  have line : Encloses ("enum " ++ declared.name ++ " \x7b\x7d") ("enum " ++ declared.name ++ " \x7b\x7d") [] :=
    .plain (avoids_append.mpr ⟨avoids_append.mpr ⟨by decide, spelled.avoids⟩, by decide⟩)
  rw [declared.text_eq, declared.bare.text_eq]
  exact comment.below line

theorem Alias.encloses {other : Alias} (spelled : ∀ name ∈ other.names, IsSpelled name) :
    Encloses other.text other.text [] := by
  obtain ⟨own, type⟩ := List.forall_mem_cons.mp spelled
  refine .plain ?_
  rw [Alias.text, avoids_append, avoids_append, avoids_append]
  exact ⟨⟨⟨by decide, own.avoids⟩, by decide⟩, SwiftType.avoids_text type⟩

/-! ### Files -/

/-- A section with its title. -/
theorem enclosesAll_titledSection {Item : Type} (title : String) (single : IsSingleLine title)
    {text bare : Item → String} {comment : Item → List String} {items : List Item}
    (each : ∀ item ∈ items, Encloses (text item) (bare item) (comment item)) :
    EnclosesAll (titledSection title (items.map text)) (titledSection title (items.map bare))
      (titleComments title items ++ items.flatMap comment) := by
  have mark : Encloses ("// MARK: - " ++ title) ("// MARK: - " ++ title) ["// MARK: - " ++ title] := by
    have slashes : isComment ("// MARK: - " ++ title) = true := by
      have front : "// MARK: - " = "//" ++ " MARK: - " := rfl
      rw [front, String.append_assoc]
      exact isComment_append _
    have line : IsSingleLine ("// MARK: - " ++ title) := isSingleLine_append.mpr ⟨by decide, single⟩
    exact .comment line line slashes slashes
  cases items with
  | nil => exact .nil
  | cons item rest => exact .single (mark.gapped (EnclosesAll.map each).blocks)

/-- A section of code, with its title for a comment. -/
theorem enclosesAll_titledCode {Item : Type} (title : String) (single : IsSingleLine title)
    {text bare : Item → String} {items : List Item}
    (each : ∀ item ∈ items, Encloses (text item) (bare item) []) :
    EnclosesAll (titledSection title (items.map text)) (titledSection title (items.map bare))
      (titleComments title items) := by
  have all := enclosesAll_titledSection title single each
  rwa [List.flatMap_eq_nil_iff.mpr fun _ _ => rfl, List.append_nil] at all

theorem isComment_headerLine (line : String) : isComment (headerLine line) = true := by
  rw [headerLine]
  split
  · decide
  · have front : "// " = "//" ++ " " := rfl
    rw [front, String.append_assoc]
    exact isComment_append _

theorem isSingleLine_headerLine {line : String} :
    IsSingleLine (headerLine line) ↔ IsSingleLine line := by
  rw [headerLine]
  split
  · rename_i empty
    rw [String.isEmpty_iff.mp empty]
    decide
  · exact isSingleLine_append.trans (and_iff_right (by decide))

/-- The opening comment, a line for each entry. -/
theorem encloses_header {header : List String} (single : ∀ line ∈ header, IsSingleLine line) :
    Encloses ("\n".intercalate (header.map headerLine))
      ("\n".intercalate (header.map fun _ => headerLine "")) (header.map headerLine) := by
  have empty : IsSingleLine (headerLine "") := by decide
  have each : ∀ line ∈ header, Encloses (headerLine line) (headerLine "") [headerLine line] :=
    fun line member => .comment (isSingleLine_headerLine.mpr (single line member)) empty
      (isComment_headerLine line) (isComment_headerLine "")
  have all := (EnclosesAll.map each).lines
  rwa [← List.map_eq_flatMap] at all

theorem encloses_identifier : Encloses Support.identifier Support.identifier
    ["/// Identifier of a row in the table named by \x60Table\x60."] := by
  refine .commented (avoids_ofList.mpr (by decide))
    (isComment_append "/ Identifier of a row in the table named by \x60Table\x60.") ?_
  repeat refine List.forall_mem_cons.mpr ⟨avoids_ofList.mpr (by decide), ?_⟩
  exact List.forall_mem_nil _

theorem encloses_encoders : Encloses Support.encoders Support.encoders [] := by
  refine (EnclosesAll.plain ?_).lines
  repeat refine List.forall_mem_cons.mpr ⟨avoids_ofList.mpr (by decide), ?_⟩
  exact List.forall_mem_nil _

theorem encloses_jsonValue : Encloses Support.jsonValue Support.jsonValue
    ["/// Value whose shape is not known statically."] := by
  refine .commented (avoids_ofList.mpr (by decide))
    (isComment_append "/ Value whose shape is not known statically.") ?_
  repeat refine List.forall_mem_cons.mpr ⟨avoids_ofList.mpr (by decide), ?_⟩
  exact List.forall_mem_nil _

/-- The imports and the support code. -/
theorem encloses_support :
    EnclosesAll ["import ConvexMobile\nimport Foundation",
        "// MARK: - Support\n\n" ++ Support.identifier ++ "\n\n" ++ Support.encoders]
      ["import ConvexMobile\nimport Foundation",
        "// MARK: - Support\n\n" ++ Support.identifier ++ "\n\n" ++ Support.encoders]
      ["// MARK: - Support", "/// Identifier of a row in the table named by \x60Table\x60."] := by
  have first : Encloses "import ConvexMobile" "import ConvexMobile" [] := .plain (by decide)
  have second : Encloses "import Foundation" "import Foundation" [] := .plain (by decide)
  have mark : Encloses "// MARK: - Support" "// MARK: - Support" ["// MARK: - Support"] :=
    .comment (by decide) (by decide) (by decide) (by decide)
  have imports : "import ConvexMobile\nimport Foundation" =
    "import ConvexMobile" ++ "\n" ++ "import Foundation" := rfl
  have titled : "// MARK: - Support\n\n" = "// MARK: - Support" ++ "\n\n" := rfl
  rw [imports, titled]
  exact .cons (first.below second) (.single ((mark.gapped encloses_identifier).gapped encloses_encoders))

section File

variable {file : File} (named : ∀ name ∈ file.names, IsSpelled name)

include named

theorem File.spelled {declaration : Declaration} (member : declaration ∈ file.declarations) :
    ∀ name ∈ declaration.names, IsSpelled name :=
  fun name inside => named name
    (List.mem_append_left _ (List.mem_flatMap.mpr ⟨declaration, member, inside⟩))

/-- **The text of a file encloses its comments**, where the header and the tables break no line. -/
theorem File.encloses (header : ∀ line ∈ file.header, IsSingleLine line)
    (tables : ∀ marker ∈ file.markers, IsSingleLine marker.table) :
    Encloses file.text file.bare.text file.comments := by
  have json : EnclosesAll (if file.usesJsonValue then [Support.jsonValue] else [])
      (if file.usesJsonValue then [Support.jsonValue] else [])
      (if file.usesJsonValue then ["/// Value whose shape is not known statically."] else []) := by
    split
    · exact .single encloses_jsonValue
    · exact .nil
  have markers := enclosesAll_titledSection "Tables" (by decide) fun marker member =>
    Marker.encloses (File.spelled named (List.mem_append_left _ (List.mem_map_of_mem member)) _
      List.mem_cons_self) (tables marker member)
  have enumerations := enclosesAll_titledCode "Enums" (by decide) fun declared member =>
    Enumeration.encloses (File.spelled named
      (List.mem_append_right _ (List.mem_append_left _ (List.mem_map_of_mem member))))
  have structs := enclosesAll_titledCode "Structs" (by decide) fun declared member =>
    Struct.encloses (File.spelled named
      (List.mem_append_right _ (List.mem_append_right _ (List.mem_map_of_mem member))))
  have aliases := enclosesAll_titledCode "Return Types" (by decide) fun other member =>
    Alias.encloses fun name inside => named name
      (List.mem_append_right _ (List.mem_flatMap.mpr ⟨other, member, inside⟩))
  have blocks : EnclosesAll file.blocks file.bare.blocks file.comments := by
    simp only [File.blocks, File.bare, File.comments, List.map_map, Function.comp_def]
    rw [← List.map_eq_flatMap] at markers
    have opening := EnclosesAll.cons (encloses_header header) encloses_support
    exact ((((opening.append json).append markers).append enumerations).append structs).append aliases
  have ending : Encloses "" "" [] := .plain (by decide)
  have text := blocks.blocks.below ending
  rwa [String.append_empty, String.append_empty, List.append_nil] at text

/-- **Which files are contained**: those where no entry of the header and no table of a marker has a
line break. -/
theorem File.isContained_iff : file.IsContained ↔
    (∀ line ∈ file.header, IsSingleLine line) ∧ ∀ marker ∈ file.markers, IsSingleLine marker.table := by
  constructor
  · intro contained
    -- Every comment is one of the lines of the text.
    have single : ∀ line ∈ file.comments, IsSingleLine line := by
      intro line member
      rw [← contained.comments] at member
      exact isSingleLine_of_mem_codeLines (List.mem_of_mem_filter member)
    constructor
    · intro line member
      refine isSingleLine_headerLine.mp (single _ ?_)
      simp only [File.comments, List.mem_append]
      exact .inl (.inl (.inl (.inl (.inl (.inl (List.mem_map_of_mem member))))))
    · intro marker member
      refine marker.isSingleLine_comment.mp (single _ ?_)
      simp only [File.comments, List.mem_append]
      exact .inl (.inl (.inl (.inr (.inr (List.mem_map_of_mem member)))))
  · rintro ⟨header, tables⟩
    obtain ⟨comments, code, closed⟩ := File.encloses named header tables
    exact ⟨comments, code, closed, named⟩

end File

end SwiftBindings.Swift
