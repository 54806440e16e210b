/-
**From syntax trees to declarations and terms.**

A tree is lowered over the text that its spans point into: each text that it keeps is cut out of it,
without the blanks at its ends.
-/

import SwiftBindings.Script.Term
import SwiftBindings.Script.Tree
import SwiftBindings.Text.Blank
import SwiftBindings.Text.Position

namespace SwiftBindings.Script

open Declared Text

/-- What a statement contributes to a module, with the texts that it keeps. -/
inductive ModuleItem where
  /-- A declared type, value or list of exports. -/
  | declaration (item : Item)
  /-- A variable with its first value. -/
  | binding (name : String) (initial : Term)
  /-- The value of the default export. -/
  | defaultExport (value : Term)
  deriving DecidableEq

variable (chars : List Char)

/-! ### Texts -/

/-- The text at a span without blanks at its ends. Offsets that do not cut the text between
characters give the empty text. -/
def Span.text (span : Span) : String :=
  String.ofList (trimWhile isBlank ((slice? chars span.start span.stop).getD []))

/-- The text of a method at a span, which ends before its semicolon or comma. -/
def Span.methodText (span : Span) : String :=
  String.ofList (dropEndWhile (fun c => c == ';' || c == ',') (span.text chars).toList)

/-- The name that a key is. A computed key keeps its brackets. -/
def KeyTree.lower : KeyTree → String
  | .known name => name
  | .number span => span.text chars
  | .computed span => "[" ++ span.text chars ++ "]"

/-! ### Types -/

mutual

/-- The type with its texts. -/
def TypeTree.lower : TypeTree → TypeExpr
  | .keyword keyword => .keyword keyword
  | .stringLiteral value => .stringLiteral value
  | .numberLiteral span => .numberLiteral (span.text chars)
  | .booleanLiteral value => .booleanLiteral value
  | .reference name arguments => .reference name (lowerTypes arguments)
  | .array element => .array element.lower
  | .tuple elements => .tuple (lowerTypes elements)
  | .union members => .union (lowerTypes members)
  | .intersection members => .intersection (lowerTypes members)
  | .object members => .object (lowerMembers members)
  | .query name => .query name
  | .verbatim span => .opaqueText (span.text chars)
  | .method span => .opaqueText (span.methodText chars)

/-- The types with their texts. -/
def lowerTypes : List TypeTree → List TypeExpr
  | [] => []
  | type :: rest => type.lower :: lowerTypes rest

/-- The member with its texts. -/
def MemberTree.lower : MemberTree → Member
  | .property key optional type => .property (key.lower chars) optional type.lower
  | .index key value => .index key.lower value.lower

/-- The members with their texts. -/
def lowerMembers : List MemberTree → List Member
  | [] => []
  | member :: rest => member.lower :: lowerMembers rest

end

/-- The type parameter with its texts. -/
def ParameterTree.lower (parameter : ParameterTree) : Parameter :=
  ⟨parameter.name, parameter.fallback.map (TypeTree.lower chars)⟩

/-- The declaration with its texts. -/
def ItemTree.lower : ItemTree → Item
  | .typeAlias name parameters type exported =>
    .typeAlias name (parameters.map (ParameterTree.lower chars)) (type.lower chars) exported
  | .interface name parameters bases members exported =>
    .interface name (parameters.map (ParameterTree.lower chars)) (lowerTypes chars bases)
      (lowerMembers chars members) exported
  | .value name type exported => .value name (type.lower chars) exported
  | .exports names => .exports names

/-! ### Expressions -/

mutual

/-- The form with the texts of its parts. -/
def FormTree.lower : FormTree → Form
  | .name name => .name name
  | .string value => .string value
  | .number => .number
  | .boolean value => .boolean value
  | .minus operand => .minus operand.lower
  | .wrapped inner => .wrapped inner.lower
  | .member object property => .member object.lower property
  | .call callee arguments => .call callee.lower (lowerTerms arguments)
  | .object entries => .object (lowerEntries entries)
  | .array items => .array (lowerTerms items)
  | .other => .other

/-- The term with its text and those of its parts. -/
def TermTree.lower : TermTree → Term
  | ⟨form, span⟩ => ⟨form.lower, span.text chars⟩

/-- The terms with their texts. -/
def lowerTerms : List TermTree → List Term
  | [] => []
  | term :: rest => term.lower :: lowerTerms rest

/-- The entry with its texts. -/
def EntryTree.lower : EntryTree → Entry
  | .property key value => .property (key.lower chars) value.lower
  | .computed key value => .computed key.lower value.lower
  | .spread operand => .spread operand.lower
  | .other => .other

/-- The entries with their texts. -/
def lowerEntries : List EntryTree → List Entry
  | [] => []
  | entry :: rest => entry.lower :: lowerEntries rest

end

/-! ### Statements -/

/-- What a statement contributes, with its texts. -/
def StatementTree.lower : StatementTree → ModuleItem
  | .declaration item => .declaration (item.lower chars)
  | .binding name initial => .binding name (initial.lower chars)
  | .defaultExport value => .defaultExport (value.lower chars)

end SwiftBindings.Script
