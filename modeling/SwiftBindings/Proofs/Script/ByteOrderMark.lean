/-
**Texts with a byte order mark.**

A byte order mark in front of a text is skipped, and offsets count from behind it. Texts are cut at these
offsets from the whole text, with the mark, so every text that is kept is the one that stands three bytes
earlier (`Span.text_marked`): behind a mark, the number in `type T = 12345;` is `= 12`
(`marked_number_shifted`).

**The main statement.** `byteOrderMark_invisible_iff`: with the mark a text is a module exactly if it is
one without, and its syntax trees are the same. Its declarations are the same, and with them all types,
exactly if the excerpts that they keep are. Where the keys that are written as numbers are the same, its
schema is the same up to the texts of unknown values, and it is the same exactly if these excerpts are.
-/

import SwiftBindings.Declared.File
import SwiftBindings.Proofs.Schema.RetextedTerms

namespace SwiftBindings.Script

open Declared Text

/-- The text behind a byte order mark. -/
def marked (source : String) : String := "\ufeff" ++ source

theorem toList_marked (source : String) : (marked source).toList = '\ufeff' :: source.toList := by
  rw [marked, String.toList_append]
  rfl

/-! ### Cutting behind a mark -/

theorem slice?_cons (c : Char) (chars : List Char) (start stop : Nat) :
    slice? (c :: chars) (start + c.utf8Size) (stop + c.utf8Size) = slice? chars start stop := by
  rw [slice?, slice?, dropBytes?_cons, Nat.add_sub_add_right]
  exact if_congr (Nat.add_le_add_iff_right) rfl rfl

/-- **Behind a mark, the text at a span is the one three bytes earlier.** -/
theorem Span.text_marked (source : String) (start stop : Nat) :
    (Span.mk (start + 3) (stop + 3)).text (marked source).toList =
      (Span.mk start stop).text source.toList := by
  rw [toList_marked, Span.text, Span.text]
  exact congrArg (fun cut : Option (List Char) => String.ofList (trimWhile isBlank (cut.getD [])))
    (slice?_cons '\ufeff' source.toList start stop)

/-! ### Reading behind a mark -/

theorem readItems_eq_error_iff (source : String) (offset : Nat) :
    readItems source = .error offset ↔ parse source.toList = .error offset := by
  delta readItems
  generalize parse source.toList = parsed
  cases parsed with
  | ok trees => exact ⟨(nomatch ·), (nomatch ·)⟩
  | error failure => exact ⟨fun failed => congrArg Except.error (Except.error.inj failed),
      fun failed => congrArg Except.error (Except.error.inj failed)⟩

theorem readModule_of_parse {source : String} {trees : List StatementTree}
    (parsed : parse source.toList = .ok trees) :
    readModule source = .ok (trees.map (StatementTree.lower source.toList)) := by
  delta readModule readItems
  rw [parsed]

theorem read?_of_parse {source : String} {trees : List StatementTree}
    (parsed : parse source.toList = .ok trees) (path : String) :
    Schema.read? path source = loweredSchema? path source.toList trees :=
  Schema.read?_of_ok (readModule_of_parse parsed)

theorem readDeclarations_of_parse {source : String} {trees : List StatementTree}
    (parsed : parse source.toList = .ok trees) :
    readDeclarations source = .ok (loweredDeclarations source.toList trees) := by
  delta readDeclarations
  rw [readModule_of_parse parsed]
  rfl

section Unmarked

variable {source : String} (unmarked : source.toList.head? ≠ some '\ufeff')

include unmarked

theorem withoutByteOrderMark_of_unmarked : withoutByteOrderMark source.toList = source.toList := by
  unfold withoutByteOrderMark
  split
  · rename_i same
    rw [same] at unmarked
    exact absurd rfl unmarked
  · rfl

/-- **A mark does not change the syntax trees.** -/
theorem parse_marked : parse (marked source).toList = parse source.toList := by
  rw [toList_marked, parse, parse, withoutByteOrderMark_of_unmarked unmarked]
  rfl

/-- **What a byte order mark changes.** A text with a mark is a module exactly if the text without one is,
or reading fails at one offset in both. The declarations are the same exactly if the excerpts that they
keep are the same in the marked text, and then so are the symbols that types are resolved with. Where the
excerpts in the keys of terms are the same, the schema is, up to the texts of unknown values; these are the
excerpts at the same spans, and the schema is the same exactly if they are. -/
theorem byteOrderMark_invisible_iff :
    (∀ offset, readItems (marked source) = .error offset ↔ readItems source = .error offset) ∧
    ∀ trees, parse source.toList = .ok trees →
      (readDeclarations (marked source) = readDeclarations source ↔
        Agree (marked source).toList source.toList (keptByDeclarations trees)) ∧
      (Agree (marked source).toList source.toList (keptByDeclarations trees) →
        readSymbols (marked source) = readSymbols source) ∧
      (Agree (marked source).toList source.toList (trees.flatMap StatementTree.keys) →
        ∃ spans : List Span, ∀ path,
          Schema.outlined (Schema.read? path (marked source)) =
            Schema.outlined (Schema.read? path source) ∧
          Schema.textsRead (Schema.read? path (marked source)) =
            spans.map (Span.text (marked source).toList) ∧
          Schema.textsRead (Schema.read? path source) = spans.map (Span.text source.toList) ∧
          (Schema.read? path (marked source) = Schema.read? path source ↔
            Agree (marked source).toList source.toList (spans.map Excerpt.text))) := by
  constructor
  · intro offset
    rw [readItems_eq_error_iff, readItems_eq_error_iff, parse_marked unmarked]
  · intro trees parsed
    have parsed' : parse (marked source).toList = .ok trees := (parse_marked unmarked).trans parsed
    have declared : readDeclarations (marked source) = readDeclarations source ↔
        Agree (marked source).toList source.toList (keptByDeclarations trees) := by
      rw [readDeclarations_of_parse parsed, readDeclarations_of_parse parsed', Except.ok.injEq,
        loweredDeclarations_eq_iff]
    refine ⟨declared, fun agree => ?_, fun keys => ?_⟩
    · delta readSymbols
      rw [declared.mpr agree]
    · simp only [read?_of_parse parsed, read?_of_parse parsed']
      exact Schema.exists_keptSpans keys

end Unmarked

/-! ### Examples -/

/-- A value of a type without texts is the same behind a mark. -/
theorem value_same_behind_mark : "declare const a: string;".toList.head? ≠ some '\ufeff' ∧
    readDeclarations (marked "declare const a: string;") = readDeclarations "declare const a: string;" := by
  have unmarked : "declare const a: string;".toList.head? ≠ some '\ufeff' := by decide
  have bare : ((parse "declare const a: string;".toList).toOption.map fun trees =>
      (keptByDeclarations trees).isEmpty) = some true := by
    decide +kernel
  cases parsed : parse "declare const a: string;".toList with
  | error failure =>
    rw [parsed] at bare
    cases bare
  | ok trees =>
    rw [parsed] at bare
    have none : keptByDeclarations trees = [] := List.isEmpty_iff.mp (Option.some.inj bare)
    exact ⟨unmarked, ((byteOrderMark_invisible_iff unmarked).2 trees parsed).1.mpr (none ▸ agree_nil)⟩

/-- The text of a number behind a mark is the one three bytes earlier. -/
theorem marked_number_shifted :
    readDeclarations "type T = 12345;" = .ok [.typeAlias "T" [] (.numberLiteral "12345") false] ∧
    readDeclarations (marked "type T = 12345;") = .ok [.typeAlias "T" [] (.numberLiteral "= 12") false] ∧
    readDeclarations (marked "type T = 12345;") ≠ readDeclarations "type T = 12345;" := by
  decide +kernel

end SwiftBindings.Script
