/-
**Syntax trees.**

What the grammar reads out of a text: the declared types and values, and the expressions that table
definitions are read from. A tree has no text of the source in it. Where a text is kept, the tree
has the span at which the text stands, and the text is cut out when the tree is lowered.
-/

import SwiftBindings.Declared.Basic

namespace SwiftBindings.Script

open Declared

/-- A stretch of a text, by the offsets of its ends. -/
structure Span where
  /-- Offset of the first byte. -/
  start : Nat
  /-- Offset after the last byte. -/
  stop : Nat
  deriving DecidableEq, Repr

/-- The key of a member or of a property. -/
inductive KeyTree where
  /-- A word, a string, or a computed key that has a name. -/
  | known (name : String)
  /-- A number, by its text. -/
  | number (span : Span)
  /-- A computed key, by the text between its brackets. -/
  | computed (span : Span)
  deriving DecidableEq, Repr

/-! ### Types -/

mutual

/-- A type. -/
inductive TypeTree where
  /-- A keyword. -/
  | keyword (keyword : Keyword)
  /-- A string literal, by its value. -/
  | stringLiteral (value : String)
  /-- A number literal, by its text with its sign. -/
  | numberLiteral (span : Span)
  /-- A truth value. -/
  | booleanLiteral (value : Bool)
  /-- A dotted name with type arguments, none when none are written. -/
  | reference (name : String) (arguments : List TypeTree)
  /-- A list type. -/
  | array (element : TypeTree)
  /-- A list type with one type for each place. -/
  | tuple (elements : List TypeTree)
  /-- Alternatives. -/
  | union (members : List TypeTree)
  /-- Parts that all hold. -/
  | intersection (members : List TypeTree)
  /-- An object type. -/
  | object (members : List MemberTree)
  /-- The type of a value, by its dotted name. -/
  | query (name : String)
  /-- Any other type, by its text. -/
  | verbatim (span : Span)
  /-- A method, by its text up to the mark that ends it. -/
  | method (span : Span)

/-- A member of an object type. -/
inductive MemberTree where
  /-- A property with its key. -/
  | property (key : KeyTree) (optional : Bool) (type : TypeTree)
  /-- The type of all further properties. -/
  | index (key value : TypeTree)

end

/-- A type parameter with its default. -/
structure ParameterTree where
  /-- Name of the parameter. -/
  name : String
  /-- Type that stands in where no argument is written. -/
  fallback : Option TypeTree

/-- A declared type, value or list of exports. -/
inductive ItemTree where
  /-- A name for a type. -/
  | typeAlias (name : String) (parameters : List ParameterTree) (type : TypeTree) (exported : Bool)
  /-- An interface: an object type with bases. -/
  | interface (name : String) (parameters : List ParameterTree) (bases : List TypeTree)
      (members : List MemberTree) (exported : Bool)
  /-- A value of a type. -/
  | value (name : String) (type : TypeTree) (exported : Bool)
  /-- Local names with the names they are exported under. -/
  | exports (names : List (String × String))

/-! ### Expressions -/

mutual

/-- The form of an expression. -/
inductive FormTree where
  /-- A variable. -/
  | name (name : String)
  /-- A string literal. -/
  | string (value : String)
  /-- A number literal. -/
  | number
  /-- A truth value. -/
  | boolean (value : Bool)
  /-- An expression behind a minus sign. -/
  | minus (operand : TermTree)
  /-- An expression in parentheses or with an assertion about its type. -/
  | wrapped (inner : TermTree)
  /-- A member selected by its name. -/
  | member (object : TermTree) (property : String)
  /-- A call. A spread argument counts as the spread expression. -/
  | call (callee : TermTree) (arguments : List TermTree)
  /-- An object literal. -/
  | object (entries : List EntryTree)
  /-- A list literal without its holes. A spread item counts as the spread expression. -/
  | array (items : List TermTree)
  /-- Any other expression. -/
  | other

/-- An expression in its place. -/
structure TermTree where
  /-- The form of the expression. -/
  form : FormTree
  /-- Where its text stands. -/
  span : Span

/-- An entry of an object literal. -/
inductive EntryTree where
  /-- A property under a known key. -/
  | property (key : KeyTree) (value : TermTree)
  /-- A property whose key is computed. -/
  | computed (key value : TermTree)
  /-- The entries of another object. -/
  | spread (operand : TermTree)
  /-- A method, or a property whose key is no name. -/
  | other

end

/-- The dotted name that a variable or a chain of its members spells. -/
def TermTree.dottedName? : TermTree → Option String
  | ⟨.name name, _⟩ => some name
  | ⟨.member object property, _⟩ => object.dottedName?.map (· ++ "." ++ property)
  | _ => none

/-! ### Statements -/

/-- What a statement contributes to a module. -/
inductive StatementTree where
  /-- A declared type, value or list of exports. -/
  | declaration (item : ItemTree)
  /-- A variable with its first value. -/
  | binding (name : String) (initial : TermTree)
  /-- The value of the default export. -/
  | defaultExport (value : TermTree)

end SwiftBindings.Script
