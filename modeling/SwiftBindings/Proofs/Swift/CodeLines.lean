/-
**Lines of code and lines of comment.**

A line that starts with two slashes is a comment. Every other line is code, with string literals in it:
`lineCode?` answers the code in front of, between and behind the literals, and has no answer where a
literal does not end on its line. What stands in a comment or in a literal has no part in it, so a text
has the same code whatever its comments and its literals say (`codeOf`).

`Encloses` compares a text with a bare copy of it, which has other comments and other literals: both have
the same code, and the comments of the text are the given ones. Texts below each other enclose what each
of them encloses (`Encloses.below`). A comment does as long as it stands on one line, and a line of code
whose literals are written by `quoted` always does (`Encloses.spliced`).
-/

import SwiftBindings.Proofs.Swift.PropertyLines

namespace SwiftBindings.Swift

open SwiftBindings.Text

/-! ### Lines -/

/-- The characters that end a line. -/
def lineBreaks : List Char := ['\n', '\r']

/-- The text has no line break. -/
def IsSingleLine (text : String) : Prop := Avoids lineBreaks text

instance (text : String) : Decidable (IsSingleLine text) :=
  inferInstanceAs (Decidable (Avoids lineBreaks text))

/-- The lines of a text as the compiler of the generated code tells them apart. -/
def codeLines (text : String) : List String :=
  (text.toList.splitOnP fun c => decide (c ∈ lineBreaks)).map String.ofList

/-- The line is a comment. -/
def isComment (line : String) : Bool :=
  (afterMark? ['/', '/'] line.toList).isSome

/-- The comments of a text, line by line. -/
def commentLines (text : String) : List String :=
  (codeLines text).filter isComment

/-- The code of a line around its literals. A comment has none. -/
def lineCode? (line : String) : Option (List String) :=
  if isComment line then some []
  else (literals? line.toList).map fun (parts, last) => parts.map Prod.fst ++ [last]

/-- The code of a text, line by line. -/
def codeOf (text : String) : List (Option (List String)) :=
  (codeLines text).map lineCode?

example : codeOf "// a\nb\"c\"d\n\"e" = [some [], some ["b", "d"], none] := by decide +kernel

/-- What a text avoids is read off its characters. Fixed texts are unfolded to them first, as taking a
long literal apart is slow. -/
theorem avoids_ofList {marks chars : List Char} :
    Avoids marks (String.ofList chars) ↔ (chars.any fun c => decide (c ∈ marks)) = false := by
  rw [Avoids, String.toList_ofList]
  simp

theorem isSingleLine_append {first second : String} :
    IsSingleLine (first ++ second) ↔ IsSingleLine first ∧ IsSingleLine second :=
  avoids_append

/-- No line has a line break. -/
theorem isSingleLine_of_mem_codeLines {text line : String} (member : line ∈ codeLines text) :
    IsSingleLine line := by
  obtain ⟨piece, inside, rfl⟩ := List.mem_map.mp member
  intro c held
  rw [String.toList_ofList] at held
  exact of_decide_eq_false (not_of_mem_splitOnP inside c held)

theorem codeLines_of_isSingleLine {text : String} (single : IsSingleLine text) :
    codeLines text = [text] := by
  rw [codeLines, List.splitOnP_eq_singleton fun c held => decide_eq_false (single c held),
    List.map_singleton, String.ofList_toList]

/-- Texts below each other have the lines of the first, then those of the second. -/
theorem codeLines_below (first second : String) :
    codeLines (first ++ "\n" ++ second) = codeLines first ++ codeLines second := by
  have chars : (first ++ "\n" ++ second).toList = first.toList ++ '\n' :: second.toList := by
    rw [String.toList_append, String.toList_append, List.append_assoc]
    rfl
  rw [codeLines, chars, List.splitOnP_append_cons first.toList second.toList (by decide),
    List.map_append]
  rfl

theorem isComment_append (rest : String) : isComment ("//" ++ rest) = true := by
  have mark : "//".toList = ['/', '/'] := rfl
  rw [isComment, String.toList_append, mark, afterMark?_append]
  rfl

/-- A text that starts with no slash is no comment. -/
theorem isComment_of_head {line : String} (other : line.toList.head? ≠ some '/') :
    isComment line = false := by
  rw [isComment]
  cases chars : line.toList with
  | nil => rfl
  | cons c rest =>
    rw [chars, List.head?_cons, ne_eq, Option.some.injEq] at other
    rw [afterMark?, if_neg (Ne.symm other)]
    rfl

/-! ### Literals in code -/

/-- The characters that code around literals has none of. -/
def codeMarks : List Char := ['"', '/', '\n', '\r']

section Spliced

variable {codes : List String} {last : String} (clean : ∀ code ∈ codes, Avoids codeMarks code)
  (ended : Avoids codeMarks last) (key : String)

include clean ended

theorem isSingleLine_spliced : IsSingleLine (spliced key codes last) :=
  avoids_spliced (by decide) (fun code member => (clean code member).mono (by decide))
    (ended.mono (by decide)) key

/-- It starts with code or with a quote. -/
theorem isComment_spliced : isComment (spliced key codes last) = false := by
  have starts : ∀ {text : String}, Avoids codeMarks text → text.toList.head? ≠ some '/' :=
    fun avoids slash => avoids '/' (List.mem_of_head? slash) (by decide)
  refine isComment_of_head ?_
  cases codes with
  | nil => exact starts ended
  | cons code rest =>
    rw [spliced, List.foldr_cons, String.toList_append, String.toList_append, toList_quoted,
      List.append_assoc, List.head?_append, List.cons_append, List.head?_cons]
    have front := starts (clean code List.mem_cons_self)
    generalize code.toList.head? = first at front ⊢
    cases first with
    | none => decide
    | some c => exact front

theorem lineCode?_spliced : lineCode? (spliced key codes last) = some (codes ++ [last]) := by
  rw [lineCode?, isComment_spliced clean ended, if_neg Bool.false_ne_true,
    literals?_spliced (fun code member => (clean code member).mono (by decide))
      (ended.mono (by decide)), Option.map_some]
  have fronts : (codes.map fun code => (code, key)).map Prod.fst = codes := by
    rw [List.map_map]
    exact List.map_id codes
  exact congrArg (fun kept => some (kept ++ [last])) fronts

end Spliced

/-! ### Texts and their bare copies -/

/-- The text has these comments, around the code that its bare copy has, too. -/
structure Encloses (text bare : String) (comments : List String) : Prop where
  /-- Every comment stands on a line of its own. -/
  comments : commentLines text = comments
  /-- The code does not depend on comments and literals. -/
  code : codeOf text = codeOf bare
  /-- Every literal ends on its line. -/
  closed : none ∉ codeOf text

theorem Encloses.below {text bare other otherBare : String} {comments others : List String}
    (first : Encloses text bare comments) (second : Encloses other otherBare others) :
    Encloses (text ++ "\n" ++ other) (bare ++ "\n" ++ otherBare) (comments ++ others) where
  comments := by
    rw [commentLines, codeLines_below, List.filter_append]
    exact congrArg₂ _ first.comments second.comments
  code := by
    rw [codeOf, codeOf, codeLines_below, codeLines_below, List.map_append, List.map_append]
    exact congrArg₂ _ first.code second.code
  closed := by
    rw [codeOf, codeLines_below, List.map_append, List.mem_append]
    exact not_or.mpr ⟨first.closed, second.closed⟩

/-- A single line of code. -/
theorem Encloses.of_line {text bare : String} (single : IsSingleLine text)
    (bareSingle : IsSingleLine bare) {code : List String} (same : lineCode? text = some code)
    (bareSame : lineCode? bare = some code) :
    Encloses text bare ([text].filter isComment) where
  comments := by rw [commentLines, codeLines_of_isSingleLine single]
  code := by
    rw [codeOf, codeOf, codeLines_of_isSingleLine single, codeLines_of_isSingleLine bareSingle,
      List.map_singleton, List.map_singleton, same, bareSame]
  closed := by
    rw [codeOf, codeLines_of_isSingleLine single, List.map_singleton, same, List.mem_singleton]
    exact Option.some_ne_none code ∘ Eq.symm

/-- **A comment on one line** adds no code. -/
theorem Encloses.comment {text bare : String} (single : IsSingleLine text)
    (bareSingle : IsSingleLine bare) (slashes : isComment text = true)
    (bareSlashes : isComment bare = true) : Encloses text bare [text] := by
  have line := Encloses.of_line single bareSingle (by rw [lineCode?, if_pos slashes])
    (by rw [lineCode?, if_pos bareSlashes])
  rwa [List.filter_cons_of_pos slashes, List.filter_nil] at line

/-- **A line with literals has the same code whatever they say.** -/
theorem Encloses.spliced (codes : List String) (last : String)
    (clean : ∀ code ∈ codes, Avoids codeMarks code) (ended : Avoids codeMarks last)
    (key bareKey : String) :
    Encloses (Swift.spliced key codes last) (Swift.spliced bareKey codes last) [] := by
  have line := Encloses.of_line (isSingleLine_spliced clean ended key)
    (isSingleLine_spliced clean ended bareKey) (lineCode?_spliced clean ended key)
    (lineCode?_spliced clean ended bareKey)
  rwa [List.filter_singleton, isComment_spliced clean ended, cond_false] at line

/-- A line of code without literals is its own bare copy. -/
theorem Encloses.plain {line : String} (clean : Avoids codeMarks line) : Encloses line line [] :=
  Encloses.spliced [] line (fun _ none => absurd none List.not_mem_nil) clean "" ""

/-- A text between two empty ones, as blocks are laid out. -/
theorem Encloses.gapped {text bare other otherBare : String} {comments others : List String}
    (first : Encloses text bare comments) (second : Encloses other otherBare others) :
    Encloses (text ++ "\n\n" ++ other) (bare ++ "\n\n" ++ otherBare) (comments ++ others) := by
  have blank : Encloses "" "" [] := .plain (by decide)
  have gap : ∀ first second : String, first ++ "\n\n" ++ second = first ++ "\n" ++ ("" ++ "\n" ++ second) := by
    intro first second
    have breaks : "\n\n" = "\n" ++ "\n" := rfl
    rw [breaks]
    simp only [String.append_assoc, String.empty_append]
  rw [gap, gap]
  exact first.below (blank.below second)

/-! ### Lists of texts -/

/-- The texts, one by one, enclose the comments together. -/
inductive EnclosesAll : List String → List String → List String → Prop where
  /-- No texts. -/
  | nil : EnclosesAll [] [] []
  /-- One more text in front. -/
  | cons {text bare : String} {texts bares comments others : List String}
      (first : Encloses text bare comments) (rest : EnclosesAll texts bares others) :
      EnclosesAll (text :: texts) (bare :: bares) (comments ++ others)

section EnclosesAll

variable {texts bares comments : List String}

theorem EnclosesAll.single {text bare : String} (encloses : Encloses text bare comments) :
    EnclosesAll [text] [bare] comments := by
  have only := EnclosesAll.cons encloses .nil
  rwa [List.append_nil] at only

theorem EnclosesAll.append {more moreBares others : List String}
    (first : EnclosesAll texts bares comments) (second : EnclosesAll more moreBares others) :
    EnclosesAll (texts ++ more) (bares ++ moreBares) (comments ++ others) := by
  induction first with
  | nil => exact second
  | cons here _ ih =>
    rw [List.append_assoc]
    exact .cons here ih

theorem EnclosesAll.map {Item : Type} {text bare : Item → String} {comment : Item → List String}
    {items : List Item} (each : ∀ item ∈ items, Encloses (text item) (bare item) (comment item)) :
    EnclosesAll (items.map text) (items.map bare) (items.flatMap comment) := by
  induction items with
  | nil => exact .nil
  | cons item rest ih =>
    obtain ⟨first, others⟩ := List.forall_mem_cons.mp each
    exact .cons first (ih others)

/-- Lines of code, one by one. -/
theorem EnclosesAll.code {Item : Type} {text bare : Item → String} (items : List Item)
    (each : ∀ item ∈ items, Encloses (text item) (bare item) []) :
    EnclosesAll (items.map text) (items.map bare) [] := by
  have all := EnclosesAll.map each
  rwa [List.flatMap_eq_nil_iff.mpr fun _ _ => rfl] at all

/-- Lines of code without literals. -/
theorem EnclosesAll.plain {list : List String} (clean : ∀ line ∈ list, Avoids codeMarks line) :
    EnclosesAll list list [] := by
  have all := EnclosesAll.code list fun line member => Encloses.plain (clean line member)
  rwa [List.map_id'] at all

theorem EnclosesAll.isEmpty_eq (all : EnclosesAll texts bares comments) :
    texts.isEmpty = bares.isEmpty := by
  cases all <;> rfl

/-- **Texts with a separator between them** enclose what they enclose together, where two texts do. -/
theorem EnclosesAll.intercalate (all : EnclosesAll texts bares comments) {separator : String}
    (joins : ∀ {text bare other otherBare : String} {comments others : List String},
      Encloses text bare comments → Encloses other otherBare others →
        Encloses (text ++ separator ++ other) (bare ++ separator ++ otherBare) (comments ++ others)) :
    Encloses (separator.intercalate texts) (separator.intercalate bares) comments := by
  induction all with
  | nil =>
    rw [String.intercalate_nil]
    exact .plain (by decide)
  | cons first rest ih =>
    cases rest with
    | nil =>
      rw [String.intercalate_singleton, String.intercalate_singleton, List.append_nil]
      exact first
    | cons second rest =>
      rw [String.intercalate_cons_cons, String.intercalate_cons_cons]
      exact joins first ih

theorem EnclosesAll.lines (all : EnclosesAll texts bares comments) :
    Encloses ("\n".intercalate texts) ("\n".intercalate bares) comments :=
  all.intercalate Encloses.below

theorem EnclosesAll.blocks (all : EnclosesAll texts bares comments) :
    Encloses ("\n\n".intercalate texts) ("\n\n".intercalate bares) comments :=
  all.intercalate Encloses.gapped

end EnclosesAll

/-- Fixed lines without literals, under a comment. -/
theorem Encloses.commented {comment : String} {list : List String} (single : IsSingleLine comment)
    (slashes : isComment comment = true) (clean : ∀ line ∈ list, Avoids codeMarks line) :
    Encloses ("\n".intercalate (comment :: list)) ("\n".intercalate (comment :: list)) [comment] :=
  (EnclosesAll.cons (.comment single single slashes slashes) (.plain clean)).lines

end SwiftBindings.Swift
