/-
**The texts that a module keeps.**

A syntax tree is lowered over a text, and all that it takes from the text are the excerpts at its spans.
So two texts give the same declarations exactly if they have the same excerpts there
(`loweredDeclarations_eq_iff`). Terms keep a text each, besides the keys in them. Written with spans for
these texts, a term gives back what it is over any text in which the keys are the same
(`TermTree.retext_coded`).
-/

import Mathlib.Data.Nat.Pairing
import SwiftBindings.Script.Module

namespace SwiftBindings.Script

open Declared Text

/-! ### Excerpts -/

/-- What is taken out of a text. -/
inductive Excerpt where
  /-- The text at a span. -/
  | text (span : Span)
  /-- The text of a method at a span. -/
  | method (span : Span)

/-- The excerpt of a text. -/
def Excerpt.read (chars : List Char) : Excerpt → String
  | .text span => span.text chars
  | .method span => span.methodText chars

/-- The texts have the same excerpts. -/
def Agree (first second : List Char) (excerpts : List Excerpt) : Prop :=
  ∀ excerpt ∈ excerpts, excerpt.read first = excerpt.read second

section Agree

variable {first second : List Char} {excerpts more : List Excerpt}

@[simp] theorem agree_nil : Agree first second [] := fun _ member => absurd member List.not_mem_nil

@[simp] theorem agree_append :
    Agree first second (excerpts ++ more) ↔ Agree first second excerpts ∧ Agree first second more :=
  List.forall_mem_append

@[simp] theorem agree_flatMap {α : Type} (items : List α) (kept : α → List Excerpt) :
    Agree first second (items.flatMap kept) ↔ ∀ item ∈ items, Agree first second (kept item) := by
  simp only [Agree, List.mem_flatMap]
  exact ⟨fun agree item member excerpt found => agree excerpt ⟨item, member, found⟩,
    fun agree excerpt ⟨item, member, found⟩ => agree item member excerpt found⟩

@[simp] theorem agree_text (span : Span) :
    Agree first second [.text span] ↔ span.text first = span.text second :=
  List.forall_mem_singleton

@[simp] theorem agree_method (span : Span) :
    Agree first second [.method span] ↔ span.methodText first = span.methodText second :=
  List.forall_mem_singleton

end Agree

/-! ### What declarations keep -/

/-- The excerpts in the name that a key is. -/
def KeyTree.kept : KeyTree → List Excerpt
  | .known _ => []
  | .number span => [.text span]
  | .computed span => [.text span]

mutual

/-- The excerpts that a type keeps, in order. -/
def TypeTree.kept : TypeTree → List Excerpt
  | .keyword _ => []
  | .stringLiteral _ => []
  | .numberLiteral span => [.text span]
  | .booleanLiteral _ => []
  | .reference _ arguments => keptByTypes arguments
  | .array element => element.kept
  | .tuple elements => keptByTypes elements
  | .union members => keptByTypes members
  | .intersection members => keptByTypes members
  | .object members => keptByMembers members
  | .query _ => []
  | .verbatim span => [.text span]
  | .method span => [.method span]

/-- The excerpts that types keep, in order. -/
def keptByTypes : List TypeTree → List Excerpt
  | [] => []
  | type :: rest => type.kept ++ keptByTypes rest

/-- The excerpts that a member keeps, in order. -/
def MemberTree.kept : MemberTree → List Excerpt
  | .property key _ type => key.kept ++ type.kept
  | .index key value => key.kept ++ value.kept

/-- The excerpts that members keep, in order. -/
def keptByMembers : List MemberTree → List Excerpt
  | [] => []
  | member :: rest => member.kept ++ keptByMembers rest

end

/-- The excerpts that a type parameter keeps. -/
def ParameterTree.kept (parameter : ParameterTree) : List Excerpt :=
  (parameter.fallback.map TypeTree.kept).getD []

/-- The excerpts that a declaration keeps, in order. -/
def ItemTree.kept : ItemTree → List Excerpt
  | .typeAlias _ parameters type _ => parameters.flatMap ParameterTree.kept ++ type.kept
  | .interface _ parameters bases members _ =>
    parameters.flatMap ParameterTree.kept ++ (keptByTypes bases ++ keptByMembers members)
  | .value _ type _ => type.kept
  | .exports _ => []

/-- The declaration that a statement is. -/
def StatementTree.declaration? : StatementTree → Option ItemTree
  | .declaration item => some item
  | _ => none

/-- The excerpts that the declarations among statements keep, in order. -/
def keptByDeclarations (trees : List StatementTree) : List Excerpt :=
  (trees.filterMap StatementTree.declaration?).flatMap ItemTree.kept

/-- The declarations among statements, with the texts that they keep. -/
def loweredDeclarations (chars : List Char) (trees : List StatementTree) : List Item :=
  declaredItems (trees.map (StatementTree.lower chars))

section Lower

variable {first second : List Char}

theorem KeyTree.lower_eq_iff (key : KeyTree) :
    key.lower first = key.lower second ↔ Agree first second key.kept := by
  cases key with
  | known name => simp [KeyTree.lower, KeyTree.kept]
  | number span => simp [KeyTree.lower, KeyTree.kept]
  | computed span => simp [KeyTree.lower, KeyTree.kept]

mutual

/-- **Two texts give a type the same texts exactly if they have the same excerpts for it.** -/
theorem TypeTree.lower_eq_iff : ∀ tree : TypeTree,
    tree.lower first = tree.lower second ↔ Agree first second tree.kept
  | .keyword _ | .stringLiteral _ | .booleanLiteral _ | .query _ => by
    simp [TypeTree.lower, TypeTree.kept]
  | .numberLiteral span | .verbatim span | .method span => by simp [TypeTree.lower, TypeTree.kept]
  | .reference name types | .tuple types | .union types | .intersection types => by
    simp [TypeTree.lower, TypeTree.kept, lowerTypes_eq_iff types]
  | .array element => by simp [TypeTree.lower, TypeTree.kept, element.lower_eq_iff]
  | .object members => by simp [TypeTree.lower, TypeTree.kept, lowerMembers_eq_iff members]

theorem lowerTypes_eq_iff : ∀ trees : List TypeTree,
    lowerTypes first trees = lowerTypes second trees ↔ Agree first second (keptByTypes trees)
  | [] => by simp [lowerTypes, keptByTypes]
  | tree :: rest => by
    simp [lowerTypes, keptByTypes, tree.lower_eq_iff, lowerTypes_eq_iff rest]

theorem MemberTree.lower_eq_iff : ∀ tree : MemberTree,
    tree.lower first = tree.lower second ↔ Agree first second tree.kept
  | .property key _ type => by
    simp [MemberTree.lower, MemberTree.kept, key.lower_eq_iff, type.lower_eq_iff]
  | .index key value => by
    simp [MemberTree.lower, MemberTree.kept, key.lower_eq_iff, value.lower_eq_iff]

theorem lowerMembers_eq_iff : ∀ trees : List MemberTree,
    lowerMembers first trees = lowerMembers second trees ↔
      Agree first second (keptByMembers trees)
  | [] => by simp [lowerMembers, keptByMembers]
  | tree :: rest => by
    simp [lowerMembers, keptByMembers, tree.lower_eq_iff, lowerMembers_eq_iff rest]

end

theorem ParameterTree.lower_eq_iff (parameter : ParameterTree) :
    parameter.lower first = parameter.lower second ↔ Agree first second parameter.kept := by
  obtain ⟨name, fallback⟩ := parameter
  cases fallback with
  | none => simp [ParameterTree.lower, ParameterTree.kept]
  | some type => simp [ParameterTree.lower, ParameterTree.kept, type.lower_eq_iff]

theorem ItemTree.lower_eq_iff (item : ItemTree) :
    item.lower first = item.lower second ↔ Agree first second item.kept := by
  cases item with
  | typeAlias name parameters type exported =>
    simp [ItemTree.lower, ItemTree.kept, ParameterTree.lower_eq_iff, type.lower_eq_iff]
  | interface name parameters bases members exported =>
    simp [ItemTree.lower, ItemTree.kept, ParameterTree.lower_eq_iff, lowerTypes_eq_iff,
      lowerMembers_eq_iff]
  | value name type exported => simp [ItemTree.lower, ItemTree.kept, type.lower_eq_iff]
  | exports names => simp [ItemTree.lower, ItemTree.kept]

theorem loweredDeclarations_eq (chars : List Char) (trees : List StatementTree) :
    loweredDeclarations chars trees =
      (trees.filterMap StatementTree.declaration?).map (ItemTree.lower chars) := by
  rw [loweredDeclarations, declaredItems, List.filterMap_map, List.map_filterMap]
  congr 1
  funext tree
  cases tree <;> rfl

/-- **Two texts give the same declarations exactly if they have the same excerpts for them.** -/
theorem loweredDeclarations_eq_iff (trees : List StatementTree) :
    loweredDeclarations first trees = loweredDeclarations second trees ↔
      Agree first second (keptByDeclarations trees) := by
  simp [loweredDeclarations_eq, keptByDeclarations, ItemTree.lower_eq_iff]

end Lower

/-! ### Terms with changed texts -/

mutual

/-- The form with the texts of the terms in it changed. -/
def Form.retext (change : String → String) : Form → Form
  | .name name => .name name
  | .string value => .string value
  | .number => .number
  | .boolean value => .boolean value
  | .minus operand => .minus (operand.retext change)
  | .wrapped inner => .wrapped (inner.retext change)
  | .member object property => .member (object.retext change) property
  | .call callee arguments => .call (callee.retext change) (retextTerms change arguments)
  | .object entries => .object (retextEntries change entries)
  | .array items => .array (retextTerms change items)
  | .other => .other

/-- The term with its text and those of the terms in it changed. -/
def Term.retext (change : String → String) : Term → Term
  | ⟨form, text⟩ => ⟨form.retext change, change text⟩

/-- The terms with their texts changed. -/
def retextTerms (change : String → String) : List Term → List Term
  | [] => []
  | term :: rest => term.retext change :: retextTerms change rest

/-- The entry with the texts of the terms in it changed. -/
def Entry.retext (change : String → String) : Entry → Entry
  | .property key value => .property key (value.retext change)
  | .computed key value => .computed (key.retext change) (value.retext change)
  | .spread operand => .spread (operand.retext change)
  | .other => .other

/-- The entries with the texts of the terms in them changed. -/
def retextEntries (change : String → String) : List Entry → List Entry
  | [] => []
  | entry :: rest => entry.retext change :: retextEntries change rest

end

theorem retextTerms_eq_map (change : String → String) (terms : List Term) :
    retextTerms change terms = terms.map (Term.retext change) := by
  induction terms with
  | nil => rfl
  | cons term rest ih => rw [retextTerms, ih, List.map_cons]

theorem retextEntries_eq_map (change : String → String) (entries : List Entry) :
    retextEntries change entries = entries.map (Entry.retext change) := by
  induction entries with
  | nil => rfl
  | cons entry rest ih => rw [retextEntries, ih, List.map_cons]

/-! ### What terms keep -/

mutual

/-- The excerpts in the keys of a form, in order. -/
def FormTree.keys : FormTree → List Excerpt
  | .name _ => []
  | .string _ => []
  | .number => []
  | .boolean _ => []
  | .minus operand => operand.keys
  | .wrapped inner => inner.keys
  | .member object _ => object.keys
  | .call callee arguments => callee.keys ++ keysOfTerms arguments
  | .object entries => keysOfEntries entries
  | .array items => keysOfTerms items
  | .other => []

/-- The excerpts in the keys of a term, in order. -/
def TermTree.keys : TermTree → List Excerpt
  | ⟨form, _⟩ => form.keys

/-- The excerpts in the keys of terms, in order. -/
def keysOfTerms : List TermTree → List Excerpt
  | [] => []
  | term :: rest => term.keys ++ keysOfTerms rest

/-- The excerpts in the keys of an entry, in order. -/
def EntryTree.keys : EntryTree → List Excerpt
  | .property key value => key.kept ++ value.keys
  | .computed key value => key.keys ++ value.keys
  | .spread operand => operand.keys
  | .other => []

/-- The excerpts in the keys of entries, in order. -/
def keysOfEntries : List EntryTree → List Excerpt
  | [] => []
  | entry :: rest => entry.keys ++ keysOfEntries rest

end

/-- The excerpts in the keys of the term that a statement contributes. -/
def StatementTree.keys : StatementTree → List Excerpt
  | .declaration _ => []
  | .binding _ initial => initial.keys
  | .defaultExport value => value.keys

/-! ### Spans for texts -/

/-- A span written down as a text. -/
def Span.code (span : Span) : String :=
  String.ofList (List.replicate (Nat.pair span.start span.stop) ' ')

/-- The span that a text writes down. -/
def Span.ofCode (code : String) : Span :=
  ⟨(Nat.unpair code.length).1, (Nat.unpair code.length).2⟩

theorem Span.ofCode_code (span : Span) : Span.ofCode span.code = span := by
  rw [Span.ofCode, Span.code, String.length_ofList, List.length_replicate, Nat.unpair_pair]

/-- The excerpt at the span that a text writes down. -/
def textAtCode (chars : List Char) (code : String) : String :=
  (Span.ofCode code).text chars

mutual

/-- The form with spans for texts. Its keys are those that it has over the text. -/
def FormTree.coded (chars : List Char) : FormTree → Form
  | .name name => .name name
  | .string value => .string value
  | .number => .number
  | .boolean value => .boolean value
  | .minus operand => .minus (operand.coded chars)
  | .wrapped inner => .wrapped (inner.coded chars)
  | .member object property => .member (object.coded chars) property
  | .call callee arguments => .call (callee.coded chars) (codedTerms chars arguments)
  | .object entries => .object (codedEntries chars entries)
  | .array items => .array (codedTerms chars items)
  | .other => .other

/-- The term with spans for texts. -/
def TermTree.coded (chars : List Char) : TermTree → Term
  | ⟨form, span⟩ => ⟨form.coded chars, span.code⟩

/-- The terms with spans for texts. -/
def codedTerms (chars : List Char) : List TermTree → List Term
  | [] => []
  | term :: rest => term.coded chars :: codedTerms chars rest

/-- The entry with spans for texts. -/
def EntryTree.coded (chars : List Char) : EntryTree → Entry
  | .property key value => .property (key.lower chars) (value.coded chars)
  | .computed key value => .computed (key.coded chars) (value.coded chars)
  | .spread operand => .spread (operand.coded chars)
  | .other => .other

/-- The entries with spans for texts. -/
def codedEntries (chars : List Char) : List EntryTree → List Entry
  | [] => []
  | entry :: rest => entry.coded chars :: codedEntries chars rest

end

/-- What a statement contributes, with spans for the texts of terms. -/
def StatementTree.coded (chars : List Char) : StatementTree → ModuleItem
  | .declaration item => .declaration (item.lower chars)
  | .binding name initial => .binding name (initial.coded chars)
  | .defaultExport value => .defaultExport (value.coded chars)

section Coded

variable {first second : List Char}

mutual

theorem FormTree.retext_coded : ∀ {tree : FormTree}, Agree first second tree.keys →
    (tree.coded first).retext (textAtCode second) = tree.lower second
  | .name _, _ | .string _, _ | .number, _ | .boolean _, _ | .other, _ => by
    simp [FormTree.lower, FormTree.coded, Form.retext]
  | .minus _, keys | .wrapped _, keys | .member _ _, keys => by
    rw [FormTree.keys] at keys
    simp [FormTree.lower, FormTree.coded, Form.retext, TermTree.retext_coded keys]
  | .call _ _, keys => by
    rw [FormTree.keys, agree_append] at keys
    simp [FormTree.lower, FormTree.coded, Form.retext, TermTree.retext_coded keys.1,
      retextTerms_coded keys.2]
  | .object _, keys => by
    rw [FormTree.keys] at keys
    simp [FormTree.lower, FormTree.coded, Form.retext, retextEntries_coded keys]
  | .array _, keys => by
    rw [FormTree.keys] at keys
    simp [FormTree.lower, FormTree.coded, Form.retext, retextTerms_coded keys]

/-- **A term over a text is the term with spans for texts, with the excerpts at these spans.** The keys
may be taken from another text, where both have the same. -/
theorem TermTree.retext_coded : ∀ {tree : TermTree}, Agree first second tree.keys →
    (tree.coded first).retext (textAtCode second) = tree.lower second
  | ⟨_, span⟩, keys => by
    rw [TermTree.keys] at keys
    simp [TermTree.lower, TermTree.coded, Term.retext, FormTree.retext_coded keys, textAtCode,
      span.ofCode_code]

theorem retextTerms_coded : ∀ {trees : List TermTree}, Agree first second (keysOfTerms trees) →
    retextTerms (textAtCode second) (codedTerms first trees) = lowerTerms second trees
  | [], _ => by simp [lowerTerms, codedTerms, retextTerms]
  | _ :: _, keys => by
    rw [keysOfTerms, agree_append] at keys
    simp [lowerTerms, codedTerms, retextTerms, TermTree.retext_coded keys.1, retextTerms_coded keys.2]

theorem EntryTree.retext_coded : ∀ {tree : EntryTree}, Agree first second tree.keys →
    (tree.coded first).retext (textAtCode second) = tree.lower second
  | .property key _, keys => by
    rw [EntryTree.keys, agree_append] at keys
    simp [EntryTree.lower, EntryTree.coded, Entry.retext, key.lower_eq_iff.mpr keys.1,
      TermTree.retext_coded keys.2]
  | .computed _ _, keys => by
    rw [EntryTree.keys, agree_append] at keys
    simp [EntryTree.lower, EntryTree.coded, Entry.retext, TermTree.retext_coded keys.1,
      TermTree.retext_coded keys.2]
  | .spread _, keys => by
    rw [EntryTree.keys] at keys
    simp [EntryTree.lower, EntryTree.coded, Entry.retext, TermTree.retext_coded keys]
  | .other, _ => by simp [EntryTree.lower, EntryTree.coded, Entry.retext]

theorem retextEntries_coded : ∀ {trees : List EntryTree}, Agree first second (keysOfEntries trees) →
    retextEntries (textAtCode second) (codedEntries first trees) = lowerEntries second trees
  | [], _ => by simp [lowerEntries, codedEntries, retextEntries]
  | _ :: _, keys => by
    rw [keysOfEntries, agree_append] at keys
    simp [lowerEntries, codedEntries, retextEntries, EntryTree.retext_coded keys.1,
      retextEntries_coded keys.2]

end

end Coded

end SwiftBindings.Script
