/-
**Parsers.**

A parser reads tokens from a place in a text and either answers a value and the place after it or
fails at the offset of the first token that fits nothing. `attempt` returns to where it started when
its parser fails, and `iterate` repeats a step until the step declines, at most once for each
character that is left.
-/

import SwiftBindings.Script.Lexer
import SwiftBindings.Script.Tree

namespace SwiftBindings.Script

open Text

/-- A place in a text between two tokens. -/
structure Cursor where
  /-- The token ahead. -/
  token : Token
  /-- Offset after the last token read. -/
  previousStop : Nat

/-- The place before the first token of a text. -/
def Cursor.ofText (chars : List Char) : Cursor :=
  ⟨nextToken chars 0, 0⟩

/-- A reader of tokens, which fails with an offset. -/
abbrev Parser := StateT Cursor (Except Nat)

/-! ### Tokens ahead -/

/-- The token ahead. -/
def ahead : Parser Token := do
  return (← get).token

/-- The token after the one ahead. -/
def aheadTwo : Parser Token := do
  let token ← ahead
  return nextToken token.rest token.stop

/-- Fails at the token ahead. -/
def unexpected {α : Type} : Parser α := do
  throw (← ahead).start

/-- Reads the token ahead. -/
def advance : Parser Unit :=
  modify fun cursor =>
    ⟨nextToken cursor.token.rest cursor.token.stop, cursor.token.stop⟩

/-- Makes a token the one ahead, after text that was read by other means. -/
def resumeAt (token : Token) (previousStop : Nat) : Parser Unit :=
  set (⟨token, previousStop⟩ : Cursor)

/-- The token is the mark. -/
def Token.isMark (token : Token) (text : String) : Bool := token.kind == .mark text

/-- The token is the word. -/
def Token.isWord (token : Token) (name : String) : Bool := token.kind == .word name

/-- The token is any word. -/
def Token.isAnyWord (token : Token) : Bool :=
  match token.kind with
  | .word _ => true
  | _ => false

/-- The token is a word that can name a variable. -/
def Token.isIdentifier (token : Token) : Bool :=
  match token.kind with
  | .word name => name ∉ reservedWords
  | _ => false

/-- The token ahead is the mark. -/
def atMark (text : String) : Parser Bool := do
  return (← ahead).isMark text

/-- The token ahead is the word. -/
def atWord (name : String) : Parser Bool := do
  return (← ahead).isWord name

/-- The token ahead starts a new line. -/
def atLineStart : Parser Bool := do
  return (← ahead).lineBreak

/-- Reads the mark when it is ahead, and tells whether it was. -/
def eatMark (text : String) : Parser Bool := do
  if ← atMark text then
    advance
    return true
  return false

/-- Reads the word when it is ahead, and tells whether it was. -/
def eatWord (name : String) : Parser Bool := do
  if ← atWord name then
    advance
    return true
  return false

/-- Reads the mark. -/
def expectMark (text : String) : Parser Unit := do
  unless ← eatMark text do unexpected

/-- Reads the word. -/
def expectWord (name : String) : Parser Unit := do
  unless ← eatWord name do unexpected

/-- Reads any word. -/
def anyWord : Parser String := do
  match (← ahead).kind with
  | .word name =>
    advance
    return name
  | _ => unexpected

/-- Reads a word that can name a variable. -/
def identifier : Parser String := do
  if (← ahead).isIdentifier then anyWord else unexpected

/-- Ends a statement or a member: reads a semicolon, or nothing before a closing brace, at the end
of the text and at the start of a line. -/
def semicolon : Parser Unit := do
  unless ← eatMark ";" do
    let token ← ahead
    unless token.isMark "\x7d" || token.kind == .finish || token.lineBreak do unexpected

/-! ### Places -/

/-- The span from an offset to the last token read. -/
def spanFrom (start : Nat) : Parser Span := do
  return ⟨start, (← get).previousStop⟩

/-- The offset of the token ahead. -/
def here : Parser Nat := do
  return (← ahead).start

/-! ### Combinators -/

/-- The parser's answer, or none and no token read when it fails. -/
def attempt {α : Type} (parser : Parser α) : Parser (Option α) := fun cursor =>
  match parser cursor with
  | .ok (answer, next) => .ok (some answer, next)
  | .error _ => .ok (none, cursor)

/-- The parser's answer, or the offset where it fails and no token read. -/
def probe {α : Type} (parser : Parser α) : Parser (Except Nat α) := fun cursor =>
  match parser cursor with
  | .ok (answer, next) => .ok (.ok answer, next)
  | .error offset => .ok (.error offset, cursor)

/-- The parser, which fails at the given offset where it would fail before it. Another reading of
the text got as far as that. -/
def notBefore {α : Type} (offset : Nat) (parser : Parser α) : Parser α := fun cursor =>
  match parser cursor with
  | .ok result => .ok result
  | .error earlier => .error (max earlier offset)

/-- Whether the parser succeeds with a positive answer; no token is read. -/
def foresee (parser : Parser Bool) : Parser Bool := fun cursor =>
  match parser cursor with
  | .ok (answer, _) => .ok (answer, cursor)
  | .error _ => .ok (false, cursor)

/-- Repeats a step until it declines, at most the given number of times. -/
def iterateUpTo {α : Type} (step : α → Parser (Option α)) : Nat → α → Parser α
  | 0, value => pure value
  | count + 1, value => do
    match ← step value with
    | some next => iterateUpTo step count next
    | none => return value

/-- Repeats a step until it declines. A step that goes on reads at least one character. -/
def iterate {α : Type} (step : α → Parser (Option α)) (value : α) : Parser α := do
  iterateUpTo step ((← ahead).rest.length + 2) value

/-- Reads elements separated by commas up to the closing mark, which is left ahead. A comma may
follow the last element. -/
def listUntil {α : Type} (closing : String) (element : Parser α) : Parser (List α) := do
  let read ← iterate (fun (read : List α) => do
    if ← atMark closing then return none
    let item ← element
    unless ← eatMark "," do
      unless ← atMark closing do unexpected
    return some (item :: read)) []
  return read.reverse

/-- Reads elements up to the closing mark, which is left ahead. -/
def manyUntil {α : Type} (closing : String) (element : Parser α) : Parser (List α) := do
  let read ← iterate (fun (read : List α) => do
    if ← atMark closing then return none
    return some ((← element) :: read)) []
  return read.reverse

/-- Reads the opening angle bracket, also as the first half of a shift operator. -/
def eatOpeningAngle : Parser Bool := do
  let token ← ahead
  if token.isMark "<" then
    advance
    return true
  if token.isMark "<<" then
    resumeAt { token with kind := .mark "<", start := token.start + 1, lineBreak := false }
      (token.start + 1)
    return true
  return false

/-- An opening angle bracket is ahead. -/
def atOpeningAngle : Parser Bool := do
  let token ← ahead
  return token.isMark "<" || token.isMark "<<"

/-! ### Templates -/

/-- The pieces of a template from a place inside it, with a parser for what a substitution holds;
the first argument bounds the number of pieces. -/
def templatePieces (substitution : Parser Unit) : Nat → List Char → Nat → Parser Unit
  | 0, _, _ => unexpected
  | count + 1, chars, offset => do
    match templateEnd? chars with
    | none => unexpected
    | some (ending, text, rest) =>
      let stop := offset + byteLength text
      resumeAt (nextToken rest stop) stop
      match ending with
      | .closed => return ()
      | .substitution =>
        substitution
        let token ← ahead
        unless token.isMark "\x7d" do unexpected
        templatePieces substitution count token.rest token.stop

/-- Reads a template whose opening quote is ahead. -/
def template (substitution : Parser Unit) : Parser Unit := do
  let token ← ahead
  unless token.kind == .backquote do unexpected
  templatePieces substitution (token.rest.length + 1) token.rest token.stop

end SwiftBindings.Script
