/-
**Type parameters, parameters and annotations.**

What functions, methods, interfaces and types share: lists of type parameters and arguments, lists
of parameters, and the types written behind a colon.
-/

import SwiftBindings.Script.Grammar

namespace SwiftBindings.Script

namespace Grammar

variable (g : Grammar)

/-! ### Modifiers -/

/-- The token may follow a modifier, which is otherwise a name. -/
def followsModifier (token : Token) : Bool :=
  !token.lineBreak && (match token.kind with
    | .word _ | .string _ | .number | .bigint | .privateName => true
    | .mark text => text ∈ ["[", "\x7b", "*", "..."]
    | _ => false)

/-- Reads one of the words where it is a modifier. -/
def eatModifier (words : List String) : Parser Bool := do
  match (← ahead).kind with
  | .word name =>
    if name ∈ words && followsModifier (← aheadTwo) then
      advance
      return true
    return false
  | _ => return false

/-- Reads modifiers until there are none. -/
def eatModifiers (words : List String) : Parser Unit :=
  iterate (fun _ => do
    if ← eatModifier words then return some () else return none) ()

/-- The modifiers of parameters. -/
def accessWords : List String :=
  ["public", "private", "protected", "readonly", "override"]

/-! ### Names of types -/

/-- A dotted name. A point without a name behind it ends the name. -/
def entityName : Parser String := do
  let first ← anyWord
  iterate (fun (name : String) => do
    if ← eatMark "." then
      if (← ahead).isAnyWord then
        return some (name ++ "." ++ (← anyWord))
      return none
    return none) first

/-- Type arguments between angle brackets. -/
def typeArguments : Parser (List TypeTree) := do
  unless ← eatOpeningAngle do unexpected
  let arguments ← listUntil ">" g.type
  expectMark ">"
  return arguments

/-- Type arguments, when an angle bracket opens them on the same line. -/
def typeArgumentsIfAny : Parser (List TypeTree) := do
  if (← atOpeningAngle) && !(← atLineStart) then typeArguments g else return []

/-- A type parameter with its bound and its default. -/
def typeParameter : Parser ParameterTree := do
  eatModifiers ["const", "in", "out", "public", "private", "protected", "readonly", "abstract",
    "override"]
  let name ← anyWord
  if ← eatWord "extends" then
    let _ ← g.type
  if ← eatMark "=" then
    return ⟨name, some (← g.type)⟩
  return ⟨name, none⟩

/-- Type parameters, when an angle bracket opens them. -/
def typeParameters : Parser (List ParameterTree) := do
  if ← eatOpeningAngle then
    let parameters ← listUntil ">" (typeParameter g)
    expectMark ">"
    return parameters
  return []

/-! ### Annotations -/

/-- A type behind a colon, when there is one. -/
def annotation : Parser (Option TypeTree) := do
  if ← eatMark ":" then return some (← g.type) else return none

/-- The type of a result, which may state a condition on a parameter. -/
def resultType : Parser Unit := do
  let token ← ahead
  let next ← aheadTwo
  if token.isWord "asserts" && !next.lineBreak && (next.isIdentifier || next.isWord "this") then
    advance
    advance
    if ← eatWord "is" then
      let _ ← g.type
  else if token.isIdentifier && next.isWord "is" && !next.lineBreak then
    advance
    advance
    let _ ← g.type
  else
    let _ ← g.type

/-- The type of a result behind a colon, when there is one. -/
def resultAnnotation : Parser Unit := do
  if ← eatMark ":" then resultType g

/-! ### Parameters -/

/-- A parameter with its annotation and its default. -/
def parameter : Parser Unit := do
  let _ ← eatMark "..."
  eatModifiers accessWords
  if ← eatWord "this" then pure ()
  else
    let _ ← g.pattern
  let _ ← eatMark "?"
  let _ ← annotation g
  if ← eatMark "=" then
    let _ ← g.expression

/-- Parameters between parentheses. -/
def parameters : Parser Unit := do
  expectMark "("
  let _ ← listUntil ")" (parameter g)
  expectMark ")"

/-- Type parameters, parameters and the type of the result. -/
def signature : Parser Unit := do
  let _ ← typeParameters g
  parameters g
  resultAnnotation g

end Grammar

end SwiftBindings.Script
