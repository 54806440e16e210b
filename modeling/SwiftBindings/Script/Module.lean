/-
**Modules.**

A module is the list of what its statements contribute. Reading fails at one position: the first
token that cannot continue the text, or the end. A byte order mark and an interpreter line in front
are skipped; all offsets count from behind the byte order mark, and texts are cut at those offsets
from the whole text.
-/

import SwiftBindings.Script.Lowering
import SwiftBindings.Script.StatementGrammar

namespace SwiftBindings.Script

open Declared Text

/-- The text behind a byte order mark. -/
def withoutByteOrderMark : List Char → List Char
  | '\ufeff' :: rest => rest
  | chars => chars

/-- The text with the interpreter line skipped, and the offset at which it starts. -/
def withoutInterpreterLine (chars : List Char) : List Char × Nat :=
  match chars with
  | '#' :: '!' :: _ =>
    let line := chars.takeWhile fun c => !isLineEnd c
    (chars.drop line.length, byteLength line)
  | _ => (chars, 0)

/-- All statements up to the end of the text. -/
def statements (g : Grammar) : Parser (List StatementTree) := do
  let read ← iterate (fun (read : List (List StatementTree)) => do
    if (← ahead).kind == .finish then return none
    return some ((← g.moduleItem) :: read)) []
  return read.reverse.flatten

/-- A bound on the nesting of a text. -/
def nestingBound (chars : List Char) : Nat := 4 * chars.length + 8

/-- The statements of a text, or the offset where reading fails. -/
def parse (chars : List Char) : Except Nat (List StatementTree) :=
  let bare := withoutByteOrderMark chars
  let (rest, offset) := withoutInterpreterLine bare
  let start : Cursor := ⟨nextToken rest offset, offset⟩
  match (statements (.ofDepth (nestingBound bare))) start with
  | .ok (trees, _) => .ok trees
  | .error failure => .error failure

/-- The items of the module with the given text, or the offset where reading fails. -/
def readItems (source : String) : Except Nat (List ModuleItem) :=
  match parse source.toList with
  | .ok trees => .ok (trees.map (StatementTree.lower source.toList))
  | .error failure => .error failure

/-- The items of the module with the given text, or the position where reading fails. -/
def readModule (source : String) : Except Position (List ModuleItem) :=
  match readItems source with
  | .ok items => .ok items
  | .error offset => .error (Position.ofOffset source offset)

/-- The types and values that a module declares, in order. -/
def declaredItems (items : List ModuleItem) : List Item :=
  items.filterMap fun item => match item with
    | .declaration declared => some declared
    | _ => none

end SwiftBindings.Script
