/-
**The keys on the wire are those of the fields.**

Which key a property is exchanged under is said by the text of its struct. A struct that is read names
the keys in its coding keys, a case for every property, or has none, and then the keys are the names of
the properties without backticks (`DecodesKeys`). A struct that is written sets its arguments one
statement after the other, and the keys are the string literals of the statements (`EncodesKeys`). Both
are read off the lines of the text, whatever characters the keys have.

**The main statement.** `wireKeys_exact`: after a run of renderings, every registered struct is read
from, or written under, exactly the names of the fields that it was rendered from.
-/

import SwiftBindings.Proofs.Swift.PropertyLines
import SwiftBindings.Proofs.Swift.WireKeys

namespace SwiftBindings.Swift

open SwiftBindings.Text

/-! ### Reading lines -/

/-- The lines between two lines, the first that opens and the first behind it that closes. -/
def between? (opening closing : String) (lines : List String) : Option (List String) :=
  match lines.dropWhile (· != opening) with
  | [] => none
  | _ :: rest => some (rest.takeWhile (· != closing))

/-- The line that opens coding keys. -/
def codingKeysOpening : String := "    enum CodingKeys: String, CodingKey \x7b"

/-- The line that opens the function for the arguments. -/
def functionOpening : String := "    func toArgs() -> [String: ConvexEncodable?] \x7b"

/-- The line that closes coding keys or a function. -/
def memberClosing : String := "    \x7d"

/-- The line in front of the statements that set arguments. -/
def statementsOpening : String := "        var args: [String: ConvexEncodable?] = [:]"

/-- The line behind them. -/
def statementsClosing : String := "        return args"

/-! ### Keys of a text -/

/-- The cases of a struct's coding keys. -/
def codingCases? (text : String) : Option (List String) :=
  between? codingKeysOpening memberClosing (lines text)

/-- The key that a property is read from. -/
def decodedKey? (text name : String) : Option String :=
  match codingCases? text with
  | none => some (withoutBackticks name)
  | some cases => (cases.filterMap caseKey?).lookup name

/-- The statements that set the arguments of a struct. -/
def argumentStatements (text : String) : List String :=
  (between? statementsOpening statementsClosing (lines text)).getD []

/-- By the text, these properties are read from these keys. -/
structure DecodesKeys (text : String) (members : List (String × String)) : Prop where
  /-- The properties are the stored ones. -/
  stored : (lines text).filterMap storedName? = members.map Prod.fst
  /-- Coding keys have a case for every property, in order. -/
  cases : ∀ cases, codingCases? text = some cases → cases.map caseKey? = members.map some
  /-- Every property is read from its key. -/
  keys : ∀ member ∈ members, decodedKey? text member.1 = some member.2

/-- By the text, these properties are written under these keys. -/
structure EncodesKeys (text : String) (members : List (String × String)) : Prop where
  /-- The properties are the stored ones. -/
  stored : (lines text).filterMap storedName? = members.map Prod.fst
  /-- Every property has its statement, in order. -/
  statements : List.Forall₂ SetsKey members (argumentStatements text)

/-! ### Readers on what is laid out -/

theorem between?_of_mem {opening closing : String} {before inside after : List String}
    (outside : opening ∉ before) (unclosed : closing ∉ inside) :
    between? opening closing (before ++ opening :: (inside ++ closing :: after)) = some inside := by
  have skipped : ∀ line ∈ before, (line != opening) = true :=
    fun line member => bne_iff_ne.mpr fun same => outside (same ▸ member)
  have kept : ∀ line ∈ inside, (line != closing) = true :=
    fun line member => bne_iff_ne.mpr fun same => unclosed (same ▸ member)
  rw [between?, List.dropWhile_append_of_pos skipped, List.dropWhile_cons_of_neg (by simp)]
  dsimp only
  rw [List.takeWhile_append_of_pos kept, List.takeWhile_cons_of_neg (by simp), List.append_nil]

theorem between?_eq_none {opening closing : String} {lines : List String} (outside : opening ∉ lines) :
    between? opening closing lines = none := by
  have skipped : ∀ line ∈ lines, (line != opening) = true :=
    fun line member => bne_iff_ne.mpr fun same => outside (same ▸ member)
  rw [between?, List.dropWhile_eq_nil_iff.mpr skipped]

/-! ### Structs -/

/-- The properties of a struct, each with its key on the wire. -/
def Struct.members (declared : Struct) : List (String × String) :=
  declared.properties.map fun property => (property.name, property.key)

/-- The lines of a struct's stored properties. -/
def Struct.storedLines (declared : Struct) : List String :=
  declared.properties.map fun property => indent ++ property.text

theorem Struct.map_fst_members (declared : Struct) :
    declared.members.map Prod.fst = declared.memberNames := by
  rw [Struct.members, Struct.memberNames, List.map_map]
  rfl

section WellNamed

variable {declared : Struct} (named : declared.WellNamed)

include named

/-- Lines of stored properties declare the names of all properties. -/
theorem Struct.WellNamed.stored :
    declared.storedLines.filterMap storedName? = declared.memberNames := by
  rw [Struct.storedLines, List.filterMap_map, Struct.memberNames, ← List.filterMap_eq_map]
  refine List.filterMap_congr fun property member => ?_
  exact Property.storedName?_line ((named.members property member).mono (by decide))

/-- Lines of stored properties are single, and begin as such lines do. -/
theorem Struct.WellNamed.storedLine {line : String} (member : line ∈ declared.storedLines) :
    Avoids ['\n'] line ∧ ∃ head ∈ storedHeads, ∃ rest, line = head ++ rest := by
  obtain ⟨property, inside, rfl⟩ := List.mem_map.mp member
  obtain ⟨before, head, after, heads, _, line⟩ := property.storedLine
  have held : head ∈ storedHeads := heads ▸ List.mem_append_right _ List.mem_cons_self
  refine ⟨?_, head, held, _, line⟩
  have single : ∀ head ∈ storedHeads, Avoids ['\n'] head := by decide
  rw [line]
  simp only [avoids_append]
  exact ⟨single head held, ⟨(named.members property inside).mono (by decide), by decide⟩,
    named.types property inside⟩

/-- **Behind the lines of the stored properties** stand the other lines, which declare none, and in front
of them lines that begin otherwise. -/
theorem Struct.WellNamed.layout {others : List String}
    (body : declared.body = declared.storedLines ++ others)
    (single : ∀ line ∈ others, Avoids ['\n'] line) (free : ∀ line ∈ others, storedName? line = none) :
    ∃ before tail, lines declared.text = before ++ (others ++ tail) ∧
      (tail = [] ∨ tail = ["\x7d"]) ∧
      (∀ line ∈ before, ∃ head ∈ "struct " :: storedHeads, ∃ rest, line = head ++ rest) ∧
      (lines declared.text).filterMap storedName? = declared.memberNames := by
  obtain ⟨head, tail, text, ended⟩ := Struct.lines_text named.name (body ▸
    List.forall_mem_append.mpr ⟨fun line member => (named.storedLine member).1, single⟩)
  have closing : tail.filterMap storedName? = [] := by
    rcases ended with rfl | rfl <;> decide
  rw [body, List.append_assoc] at text
  refine ⟨("struct " ++ head) :: declared.storedLines, tail, text, ended, ?_, ?_⟩
  · refine List.forall_mem_cons.mpr ⟨⟨"struct ", List.mem_cons_self, head, rfl⟩, fun line member => ?_⟩
    obtain ⟨_, start, held, rest, same⟩ := named.storedLine member
    exact ⟨start, List.mem_cons_of_mem _ held, rest, same⟩
  · rw [text, List.filterMap_cons_none (storedName?_of_apart (by decide) head), List.filterMap_append,
      List.filterMap_append, named.stored, List.filterMap_eq_nil_iff.mpr free, closing,
      List.append_nil, List.append_nil]

end WellNamed

/-- A line that the beginnings of other lines differ from is none of them. -/
theorem not_mem_of_apart {line : String} {heads before : List String}
    (apart : ∀ head ∈ heads, Apart line head)
    (begins : ∀ other ∈ before, ∃ head ∈ heads, ∃ rest, other = head ++ rest) : line ∉ before := by
  intro member
  obtain ⟨head, held, rest, same⟩ := begins line member
  exact ne_append_of_apart (apart head held) rest same

/-- Where the names do not repeat, each has its own key. -/
theorem lookup_of_mem {members : List (String × String)} (distinct : (members.map Prod.fst).Nodup)
    {member : String × String} (inside : member ∈ members) : members.lookup member.1 = some member.2 := by
  obtain ⟨before, after, rfl⟩ := List.append_of_mem inside
  refine List.lookup_eq_some_iff.mpr ⟨before, after, rfl, fun other held => bne_iff_ne.mpr fun same => ?_⟩
  rw [List.map_append, List.nodup_append] at distinct
  exact distinct.2.2 _ (List.mem_map_of_mem held) member.1 List.mem_cons_self same.symm

/-! ### Structs that are read -/

section Decode

variable {declared : Struct} (named : declared.WellNamed)

include named

/-- The cases of the coding keys are the properties with their keys. -/
theorem Struct.WellNamed.map_caseKey? :
    (declared.properties.map Property.codingKey).map caseKey? = declared.members.map some := by
  rw [Struct.members, List.map_map, List.map_map]
  refine List.map_congr_left fun property member => ?_
  rw [Function.comp_apply, Function.comp_apply]
  exact Property.caseKey?_codingKey ((named.members property member).mono (by decide))

/-- The lines of the coding keys are single, and declare no stored property. -/
theorem Struct.WellNamed.mem_codingKeyLines {line : String}
    (member : line ∈ codingKeyLines declared.properties) :
    Avoids ['\n'] line ∧ storedName? line = none := by
  rw [codingKeyLines] at member
  split at member
  · have fixed : ∀ line ∈ ["", codingKeysOpening] ++ [memberClosing],
        Avoids ['\n'] line ∧ storedName? line = none := by decide
    rw [List.mem_append, List.mem_append, or_right_comm, ← List.mem_append] at member
    rcases member with member | member
    · exact fixed line member
    · obtain ⟨property, inside, rfl⟩ := List.mem_map.mp member
      rw [property.codingKey_eq]
      refine ⟨?_, storedName?_of_apart (by decide) _⟩
      rw [avoids_append, avoids_append]
      refine ⟨by decide, (named.members property inside).mono (by decide), ?_⟩
      split
      · exact avoids_append.mpr ⟨by decide, avoids_quoted (by decide) property.key⟩
      · decide
  · cases member

omit named in
/-- Among other lines, coding keys are found with a case for every property, where there are any. -/
theorem between?_codingKeyLines {properties : List Property} {before after : List String}
    (outside : codingKeysOpening ∉ before) (behind : codingKeysOpening ∉ after) :
    between? codingKeysOpening memberClosing (before ++ (codingKeyLines properties ++ after)) =
      if properties.any Property.isRenamed then some (properties.map Property.codingKey) else none := by
  rw [codingKeyLines]
  split
  · have unclosed : memberClosing ∉ properties.map Property.codingKey := by
      intro member
      obtain ⟨property, _, same⟩ := List.mem_map.mp member
      rw [property.codingKey_eq] at same
      exact ne_append_of_apart (by decide) _ same.symm
    have regrouped : before ++ (["", codingKeysOpening] ++ properties.map Property.codingKey ++
        [memberClosing] ++ after) = (before ++ [""]) ++ codingKeysOpening ::
          (properties.map Property.codingKey ++ memberClosing :: after) := by
      simp
    have apart : codingKeysOpening ∉ before ++ [""] :=
      List.mem_append.not.mpr (not_or.mpr ⟨outside, by decide⟩)
    exact (congrArg _ regrouped).trans (between?_of_mem apart unclosed)
  · exact between?_eq_none (List.mem_append.not.mpr (not_or.mpr ⟨outside, behind⟩))

/-- The text of a struct has coding keys where one of its properties is renamed. -/
theorem Struct.WellNamed.codingCases?_text (side : declared.side = .decode) :
    (lines declared.text).filterMap storedName? = declared.memberNames ∧
      codingCases? declared.text = if declared.properties.any Property.isRenamed
        then some (declared.properties.map Property.codingKey) else none := by
  have body : declared.body = declared.storedLines ++ codingKeyLines declared.properties := by
    rw [Struct.body, side]
    rfl
  obtain ⟨before, tail, text, ended, begins, stored⟩ := named.layout body
    (fun line member => (named.mem_codingKeyLines member).1) fun line member =>
      (named.mem_codingKeyLines member).2
  refine ⟨stored, ?_⟩
  rw [codingCases?, text]
  refine between?_codingKeyLines (not_mem_of_apart (by decide) begins) ?_
  rcases ended with rfl | rfl <;> decide

/-- **A struct that is read is read from its keys.** -/
theorem Struct.WellNamed.decodesKeys (side : declared.side = .decode) :
    DecodesKeys declared.text declared.members := by
  obtain ⟨stored, found⟩ := named.codingCases?_text side
  rw [← declared.map_fst_members] at stored
  by_cases renamed : declared.properties.any Property.isRenamed = true
  · rw [if_pos renamed] at found
    have keys : (declared.properties.map Property.codingKey).filterMap caseKey? = declared.members := by
      have all := congrArg (List.filterMap id) named.map_caseKey?
      rw [List.filterMap_map (g := id), List.filterMap_map (g := id)] at all
      exact all.trans List.filterMap_some
    refine ⟨stored, fun cases same => ?_, fun member inside => ?_⟩
    · cases found.symm.trans same
      exact named.map_caseKey?
    · rw [decodedKey?, found]
      dsimp only
      rw [keys]
      exact lookup_of_mem (declared.map_fst_members ▸ named.distinct) inside
  · rw [if_neg renamed] at found
    refine ⟨stored, fun cases same => ?_, fun member inside => ?_⟩
    · cases found.symm.trans same
    · obtain ⟨property, held, rfl⟩ := List.mem_map.mp inside
      have kept : property.isRenamed = false := by
        simpa using fun same => renamed (List.any_eq_true.mpr ⟨property, held, same⟩)
      rw [decodedKey?, found]
      have same : withoutBackticks property.name = property.key := by
        simpa [Property.isRenamed] using kept
      exact congrArg some same

end Decode

/-! ### Structs that are written -/

/-- The lines of the statements for properties that have an argument. -/
def statementLines (properties : List Property) : List String :=
  (properties.filterMap fun property => property.argument.map fun argument =>
    argument.statement property).map fun statement => indent ++ indent ++ statement

theorem argumentLines_eq (properties : List Property) : argumentLines properties =
    functionOpening :: ((if statementLines properties = [] then ["        [:]"]
      else statementsOpening :: (statementLines properties ++ [statementsClosing])) ++
        [memberClosing]) := by
  rw [argumentLines, statementLines]
  generalize properties.filterMap _ = statements
  cases statements with
  | nil => rfl
  | cons statement rest => rfl

theorem exists_of_mem_statementLines {properties : List Property} {line : String}
    (member : line ∈ statementLines properties) : ∃ property ∈ properties, ∃ argument : Argument,
      line = indent ++ indent ++ argument.statement property := by
  obtain ⟨statement, inside, rfl⟩ := List.mem_map.mp member
  obtain ⟨property, held, made⟩ := List.mem_filterMap.mp inside
  obtain ⟨argument, _, rfl⟩ := Option.map_eq_some_iff.mp made
  exact ⟨property, held, argument, rfl⟩

/-- Every property has its statement, in order. -/
theorem forall₂_setsKey {properties : List Property}
    (named : ∀ property ∈ properties, Avoids punctuation property.name)
    (arguments : ∀ property ∈ properties, property.argument.isSome) :
    List.Forall₂ SetsKey (properties.map fun property => (property.name, property.key))
      (statementLines properties) := by
  induction properties with
  | nil => exact .nil
  | cons property rest ih =>
    obtain ⟨first, others⟩ := List.forall_mem_cons.mp named
    obtain ⟨some, more⟩ := List.forall_mem_cons.mp arguments
    obtain ⟨argument, held⟩ := Option.isSome_iff_exists.mp some
    rw [statementLines, List.filterMap_cons_some (by rw [held, Option.map_some]), List.map_cons,
      List.map_cons]
    exact .cons (argument.setsKey (first.mono (by decide))) (ih others more)

section Encode

variable {declared : Struct} (named : declared.WellNamed)

include named

/-- The lines of the statements are single, declare no stored property, and end no statements. -/
theorem Struct.WellNamed.mem_statementLines {line : String}
    (member : line ∈ statementLines declared.properties) :
    (Avoids ['\n'] line ∧ storedName? line = none) ∧ line ≠ statementsClosing := by
  obtain ⟨property, inside, argument, rfl⟩ := exists_of_mem_statementLines member
  obtain ⟨parts, last, layout, _, keyed, clean⟩ :=
    argument.line_layout ((named.members property inside).mono (by decide))
  obtain ⟨head, held, first, second, begins⟩ := argument.statement_begins property
  have apart : ∀ head ∈ statementHeads, (∀ stored ∈ storedHeads, Apart stored (indent ++ indent ++ head)) ∧
      Apart statementsClosing (indent ++ indent ++ head) := by decide
  refine ⟨⟨layout ▸ avoids_keyedLine keyed clean, ?_⟩, ?_⟩
  · rw [begins, ← String.append_assoc]
    exact storedName?_of_apart (apart head held).1 _
  · rw [begins, ← String.append_assoc]
    exact (ne_append_of_apart (apart head held).2 _).symm

/-- No line of the function that collects the arguments breaks, or declares a stored property. -/
theorem Struct.WellNamed.mem_argumentLines {line : String}
    (member : line ∈ argumentLines declared.properties) :
    Avoids ['\n'] line ∧ storedName? line = none := by
  have fixed : ∀ line ∈ [functionOpening, "        [:]", statementsOpening, statementsClosing,
      memberClosing], Avoids ['\n'] line ∧ storedName? line = none := by decide
  by_cases inside : line ∈ statementLines declared.properties
  · exact (named.mem_statementLines inside).1
  · refine fixed line ?_
    rw [argumentLines_eq] at member
    split at member <;>
      simp only [List.mem_cons, List.mem_append, List.not_mem_nil, or_false] at member ⊢ <;> tauto

/-- Among other lines, the statements are found between the lines around them. -/
theorem Struct.WellNamed.between?_argumentLines {before after : List String}
    (outside : statementsOpening ∉ before) (behind : statementsOpening ∉ after) :
    (between? statementsOpening statementsClosing
      (before ++ (argumentLines declared.properties ++ after))).getD [] =
        statementLines declared.properties := by
  have unclosed : statementsClosing ∉ statementLines declared.properties :=
    fun member => (named.mem_statementLines member).2 rfl
  rw [argumentLines_eq]
  split
  · rename_i empty
    have fixed : statementsOpening ∉ functionOpening :: (["        [:]"] ++ [memberClosing]) := by decide
    rw [empty, between?_eq_none, Option.getD_none]
    rw [List.mem_append, List.mem_append, not_or, not_or]
    exact ⟨outside, fixed, behind⟩
  · have regrouped : before ++ (functionOpening :: (statementsOpening ::
        (statementLines declared.properties ++ [statementsClosing]) ++ [memberClosing]) ++ after) =
        (before ++ [functionOpening]) ++ statementsOpening ::
          (statementLines declared.properties ++ statementsClosing :: (memberClosing :: after)) := by
      simp
    have apart : statementsOpening ∉ before ++ [functionOpening] :=
      List.mem_append.not.mpr (not_or.mpr ⟨outside, by decide⟩)
    rw [regrouped, between?_of_mem apart unclosed, Option.getD_some]

/-- **A struct that is written is written under its keys.** -/
theorem Struct.WellNamed.encodesKeys (side : declared.side = .encode) :
    EncodesKeys declared.text declared.members := by
  obtain ⟨blank, body, gap⟩ : ∃ blank : List String, declared.body =
      declared.storedLines ++ (blank ++ argumentLines declared.properties) ∧
        ∀ line ∈ blank, line = "" := by
    refine ⟨if declared.storedLines.isEmpty then [] else [""], ?_, ?_⟩
    · rw [Struct.body, side]
      exact List.append_assoc _ _ _
    · split <;> simp
  have others : ∀ line ∈ blank ++ argumentLines declared.properties,
      Avoids ['\n'] line ∧ storedName? line = none := by
    refine List.forall_mem_append.mpr ⟨fun line member => ?_, fun line => named.mem_argumentLines⟩
    rw [gap line member]
    decide
  obtain ⟨before, tail, text, ended, begins, stored⟩ := named.layout body
    (fun line member => (others line member).1) fun line member => (others line member).2
  refine ⟨stored.trans declared.map_fst_members.symm, ?_⟩
  have outside : statementsOpening ∉ before ++ blank := by
    rw [List.mem_append, not_or]
    exact ⟨not_mem_of_apart (by decide) begins, fun member => absurd (gap _ member) (by decide)⟩
  have behind : statementsOpening ∉ tail := by
    rcases ended with rfl | rfl <;> decide
  rw [argumentStatements, text, List.append_assoc, ← List.append_assoc,
    named.between?_argumentLines outside behind]
  exact forall₂_setsKey named.members (named.arguments side)

end Encode

/-! ### Runs -/

theorem Struct.RenderedFrom.keys {registry : Registry} {declared : Struct} {fields : List Field}
    (rendered : declared.RenderedFrom registry fields) :
    declared.members.map Prod.snd = fields.map Field.name := by
  obtain ⟨before, path, attempt, _, same, _⟩ := rendered
  rw [← Registry.keys_renderProperties fields, ← same, Struct.members, List.map_map]
  rfl

/-- **Keys on the wire are exact.** After a run, every registered struct was rendered from fields, and
its text is read from, or written under, the names of any fields that it was rendered from. -/
theorem wireKeys_exact (requests : List Request) (declared : Struct)
    (registered : .struct declared ∈ (Registry.empty.answers requests).2.declarations) :
    (∃ fields, declared.RenderedFrom (Registry.empty.answers requests).2 fields) ∧
      ∀ fields, declared.RenderedFrom (Registry.empty.answers requests).2 fields →
        declared.members.map Prod.snd = fields.map Field.name ∧
        (declared.side = .decode → DecodesKeys declared.text declared.members) ∧
        (declared.side = .encode → EncodesKeys declared.text declared.members) := by
  have named := Struct.wellNamed_of_registered registered
  exact ⟨Registry.exists_renderedFrom registered, fun fields rendered =>
    ⟨rendered.keys, named.decodesKeys, named.encodesKeys⟩⟩

/-- A reserved word, quotes, and a line break. -/
def greetingFields : List Field := [
  ⟨"default", false, false, .ofShape .string⟩,
  ⟨"say \"hi\"", false, false, .ofShape .number⟩,
  ⟨"a\nb", true, false, .ofShape .boolean⟩]

/-- The run that renders them on a side. -/
def greetingRequests (side : Side) : List Request := [.struct greetingFields ["greeting"] side]

/-- The struct that is read. -/
def greetingResult : Struct where
  name := "Greeting"
  side := .decode
  properties := [
    ⟨"\x60default\x60", "default", .string, none, none⟩,
    ⟨"sayHi", "say \"hi\"", .double, some .convexFloat, none⟩,
    ⟨"aB", "a\nb", .optional .bool, none, none⟩]

/-- The struct that is written. -/
def greetingArguments : Struct where
  name := "Greeting"
  side := .encode
  properties := [
    ⟨"\x60default\x60", "default", .string, none, some ⟨.direct, .required⟩⟩,
    ⟨"sayHi", "say \"hi\"", .double, none, some ⟨.direct, .required⟩⟩,
    ⟨"aB", "a\nb", .optional .bool, none, some ⟨.direct, .optional⟩⟩]

/-- Their keys are these names. -/
theorem greetingKeys_exact :
    (.struct greetingResult ∈ (Registry.empty.answers (greetingRequests .decode)).2.declarations ∧
      greetingResult.members.map Prod.snd = greetingFields.map Field.name ∧
      DecodesKeys greetingResult.text greetingResult.members) ∧
    .struct greetingArguments ∈ (Registry.empty.answers (greetingRequests .encode)).2.declarations ∧
      greetingArguments.members.map Prod.snd = greetingFields.map Field.name ∧
      EncodesKeys greetingArguments.text greetingArguments.members := by
  have first : .struct greetingResult ∈
      (Registry.empty.answers (greetingRequests .decode)).2.declarations := by decide
  have second : .struct greetingArguments ∈
      (Registry.empty.answers (greetingRequests .encode)).2.declarations := by decide
  have result : greetingResult.RenderedFrom (Registry.empty.answers (greetingRequests .decode)).2
      greetingFields :=
    ⟨.empty, ["greeting"], 0, by decide, by decide, (Registry.register_spec _ _).2.2.within⟩
  have arguments : greetingArguments.RenderedFrom
      (Registry.empty.answers (greetingRequests .encode)).2 greetingFields :=
    ⟨.empty, ["greeting"], 0, by decide, by decide, (Registry.register_spec _ _).2.2.within⟩
  obtain ⟨keys, decodes, _⟩ := (wireKeys_exact _ greetingResult first).2 _ result
  obtain ⟨names, _, encodes⟩ := (wireKeys_exact _ greetingArguments second).2 _ arguments
  exact ⟨⟨first, keys, decodes rfl⟩, second, names, encodes rfl⟩

end SwiftBindings.Swift
