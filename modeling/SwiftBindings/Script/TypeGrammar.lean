/-
**The grammar of types.**

From the loosest binding to the tightest: conditional types, functions, unions, intersections,
operators, lists and index access, and the types without an operator. A type that resolution cannot
follow becomes its source text at the place where it is read.
-/

import SwiftBindings.Script.Signature

namespace SwiftBindings.Script

open Declared

namespace Grammar

variable (g : Grammar)

/-- The type that stands for the text from an offset to the last token read. -/
def opaqueFrom (start : Nat) : Parser TypeTree := do
  return .verbatim (← spanFrom start)

/-! ### Members of object types -/

/-- The key of a member. A computed key that spells a dotted name is known by it in brackets, and
the key of a well-known symbol has a mark of its own. -/
def memberKey : Parser KeyTree := do
  let token ← ahead
  match token.kind with
  | .mark "[" =>
    advance
    let start ← here
    let key ← g.expression
    let span ← spanFrom start
    expectMark "]"
    match key.dottedName? with
    | some name => match Text.afterMark? "Symbol.".toList name.toList with
      | some symbol => return .known ("__@" ++ String.ofList symbol)
      | none => return .known ("[" ++ name ++ "]")
    | none => return .computed span
  | .string value =>
    advance
    return .known value
  | .number =>
    advance
    return .number ⟨token.start, token.stop⟩
  | _ => return .known (← anyWord)

/-- The type of a member without an annotation is any. -/
def memberType : Parser TypeTree := do
  return (← annotation g).getD (.keyword .any)

/-- Ends a member: a comma or what ends a statement. -/
def memberEnd : Parser Unit := do
  unless ← eatMark "," do semicolon

/-- A member whose bracket opens the name of an index. -/
def startsIndex : Parser Bool := foresee do
  expectMark "["
  let _ ← identifier
  return (← atMark ":") || (← atMark ",")

/-- An index member. -/
def indexMember : Parser MemberTree := do
  expectMark "["
  let _ ← anyWord
  unless ← eatMark "," do expectMark ":"
  let key ← g.type
  expectMark "]"
  let value ← memberType g
  memberEnd
  return .index key value

/-- A member that is read or written by a function. Only one that is read has a type. -/
def accessor : Parser (Option MemberTree) := do
  if ← eatWord "get" then
    let key ← memberKey g
    expectMark "("
    expectMark ")"
    let type ← memberType g
    memberEnd
    return some (.property key false type)
  expectWord "set"
  let _ ← memberKey g
  expectMark "("
  parameter g
  let _ ← eatMark ","
  expectMark ")"
  memberEnd
  return none

/-- A property or a method that started at an offset. -/
def propertyOrMethod (start : Nat) : Parser MemberTree := do
  let key ← memberKey g
  let optional ← eatMark "?"
  if (← atMark "(") || (← atOpeningAngle) then
    signature g
    memberEnd
    return .property key optional (.method (← spanFrom start))
  let type ← memberType g
  memberEnd
  return .property key optional type

/-- A member of an object type. Call signatures and written members declare nothing. -/
def objectMember : Parser (Option MemberTree) := do
  let start ← here
  let token ← ahead
  let next ← aheadTwo
  if token.isMark "(" || (← atOpeningAngle) then
    signature g
    memberEnd
    return none
  if token.isWord "new" && (next.isMark "(" || next.isMark "<") then
    advance
    signature g
    memberEnd
    return none
  let readonly ← eatModifier ["readonly"]
  if ← startsIndex then return some (← indexMember g)
  match ← attempt (if readonly then unexpected else accessor g) with
  | some member => return member
  | none => return some (← propertyOrMethod g start)

/-- The members of an object type between braces. -/
def objectMembers : Parser (List MemberTree) := do
  expectMark "\x7b"
  let members ← manyUntil "\x7d" (objectMember g)
  expectMark "\x7d"
  return members.filterMap id

/-! ### Mapped types -/

/-- A brace that opens a mapped type. -/
def startsMapped : Parser Bool := foresee do
  expectMark "\x7b"
  if (← eatMark "+") || (← eatMark "-") then
    atWord "readonly"
  else
    let _ ← eatWord "readonly"
    expectMark "["
    let _ ← identifier
    atWord "in"

/-- A mapped type. -/
def mapped : Parser TypeTree := do
  let start ← here
  expectMark "\x7b"
  if (← eatMark "+") || (← eatMark "-") then expectWord "readonly"
  else
    let _ ← eatWord "readonly"
  expectMark "["
  let _ ← anyWord
  expectWord "in"
  let _ ← g.type
  if ← eatWord "as" then
    let _ ← g.type
  expectMark "]"
  if (← eatMark "+") || (← eatMark "-") then expectMark "?"
  else
    let _ ← eatMark "?"
  let _ ← annotation g
  semicolon
  expectMark "\x7d"
  opaqueFrom start

/-! ### Lists of types -/

/-- The name of a tuple's element, and its colon. -/
def elementLabel : Parser Unit := do
  let _ ← eatMark "..."
  let _ ← anyWord
  let _ ← eatMark "?"
  expectMark ":"

/-- An element of a tuple. -/
def tupleElement : Parser TypeTree := do
  let _ ← attempt elementLabel
  if ← eatMark "..." then g.type
  else
    let type ← g.type
    let _ ← eatMark "?"
    return type

/-- A tuple. -/
def tuple : Parser TypeTree := do
  expectMark "["
  let elements ← listUntil "]" (tupleElement g)
  expectMark "]"
  return .tuple elements

/-! ### Types without an operator -/

/-- The type of an imported module, with the name of one of its types. -/
def importType : Parser TypeTree := do
  let start ← here
  expectWord "import"
  expectMark "("
  let token ← ahead
  match token.kind with
  | .string _ => advance
  | _ => unexpected
  if ← eatMark "," then
    unless ← atMark ")" do
      let _ ← g.expression
      let _ ← eatMark ","
  expectMark ")"
  if ← eatMark "." then
    let _ ← entityName
  let _ ← typeArgumentsIfAny g
  opaqueFrom start

/-- The type of a value. -/
def queryType : Parser TypeTree := do
  let start ← here
  expectWord "typeof"
  if ← atWord "import" then
    let _ ← importType g
    let _ ← typeArgumentsIfAny g
    opaqueFrom start
  else
    let name ← entityName
    let _ ← typeArgumentsIfAny g
    return .query name

/-- The type of the object itself, or a condition on it. -/
def thisType : Parser TypeTree := do
  let start ← here
  expectWord "this"
  if (← atWord "is") && !(← atLineStart) then
    advance
    let _ ← g.type
  opaqueFrom start

/-- A name with its type arguments. -/
def referenceType : Parser TypeTree := do
  let _ ← eatModifier accessWords
  let name ← entityName
  return .reference name (← typeArgumentsIfAny g)

/-- A type that a word starts. -/
def wordType (name : String) : Parser TypeTree := do
  let token ← ahead
  let next ← aheadTwo
  if name = "asserts" && next.isWord "this" then
    advance
    advance
    if ← eatWord "is" then
      let _ ← g.type
    opaqueFrom token.start
  else if !next.isMark "." then
    match Keyword.ofText? name with
    | some keyword =>
      advance
      return .keyword keyword
    | none =>
      if name = "intrinsic" then
        advance
        opaqueFrom token.start
      else referenceType g
  else referenceType g

/-- Reserved words that may name a type. -/
def reservedTypeNames : List String := ["void", "null", "break"]

/-- A type without an operator. -/
def primaryType : Parser TypeTree := do
  let token ← ahead
  match token.kind with
  | .word "true" =>
    advance
    return .booleanLiteral true
  | .word "false" =>
    advance
    return .booleanLiteral false
  | .word "import" => importType g
  | .word "this" => thisType g
  | .word "typeof" => queryType g
  | .word name =>
    if token.isIdentifier || name ∈ reservedTypeNames then wordType g name else unexpected
  | .string value =>
    advance
    return .stringLiteral value
  | .number =>
    advance
    return .numberLiteral (← spanFrom token.start)
  | .bigint =>
    advance
    return .keyword .bigint
  | .backquote =>
    template do
      let _ ← g.type
    return .keyword .string
  | .mark "-" =>
    advance
    match (← ahead).kind with
    | .number =>
      advance
      return .numberLiteral (← spanFrom token.start)
    | .bigint =>
      advance
      return .keyword .bigint
    | _ => unexpected
  | .mark "\x7b" =>
    if ← startsMapped then mapped g else return .object (← objectMembers g)
  | .mark "[" => tuple g
  | .mark "(" =>
    advance
    let type ← g.type
    expectMark ")"
    return type
  | _ => unexpected

/-! ### Operators -/

/-- A type with list and index brackets behind it, which start on the same line. -/
def postfixType : Parser TypeTree := do
  let start ← here
  let first ← primaryType g
  iterate (fun (type : TypeTree) => do
    if (← atMark "[") && !(← atLineStart) then
      advance
      if ← eatMark "]" then return some (.array type)
      let _ ← g.type
      expectMark "]"
      return some (← opaqueFrom start)
    return none) first

/-- The bound of an inferred type. Where a question mark follows, the bound is the condition of a
conditional type instead. -/
def inferredBound (restricted : Bool) : Parser Unit := do
  expectWord "extends"
  let _ ← g.unconditionalType restricted
  unless restricted do
    if ← atMark "?" then unexpected

/-- The operators that stand in front of a type. -/
inductive TypeOperator where
  | keyof
  | unique
  | readonly

/-- The operator that a token stands for. -/
def TypeOperator.ofToken? (token : Token) : Option TypeOperator :=
  match token.kind with
  | .word "keyof" => some .keyof
  | .word "unique" => some .unique
  | .word "readonly" => some .readonly
  | _ => none

/-- A type with operators in front of it: the operators, outermost first and each with its place,
then the type. -/
def operatorType (restricted : Bool) : Parser TypeTree := do
  let operators ← iterate (fun (read : List (TypeOperator × Nat)) => do
    let token ← ahead
    match TypeOperator.ofToken? token with
    | some operator =>
      advance
      return some ((operator, token.start) :: read)
    | none => return none) []
  let start ← here
  let operand ← if ← eatWord "infer" then do
      let _ ← anyWord
      let _ ← attempt (inferredBound g restricted)
      opaqueFrom start
    else postfixType g
  operators.foldlM (fun type entry =>
    match entry.1 with
    | .keyof => opaqueFrom entry.2
    | .unique => return .keyword .symbol
    | .readonly => return type) operand

/-- Types separated by an operator, which may also stand in front of the first. A single type is
itself. -/
def operands (operator : String) (operand : Parser TypeTree)
    (combine : List TypeTree → TypeTree) : Parser TypeTree := do
  let _ ← eatMark operator
  let first ← operand
  let read ← iterate (fun (read : List TypeTree) => do
    if ← eatMark operator then return some ((← operand) :: read) else return none) [first]
  match read with
  | [type] => return type
  | _ => return combine read.reverse

/-- An intersection. -/
def intersectionType (restricted : Bool) : Parser TypeTree :=
  operands "&" (operatorType g restricted) .intersection

/-- A union. -/
def unionType (restricted : Bool) : Parser TypeTree :=
  operands "|" (intersectionType g restricted) .union

/-! ### Functions and conditions -/

/-- A parenthesis that opens the parameters of a function type. -/
def startsFunction : Parser Bool := foresee do
  expectMark "("
  if (← atMark ")") || (← atMark "...") then return true
  let _ ← eatModifier accessWords
  let token ← ahead
  if token.isAnyWord then advance
  else
    unless token.isMark "\x7b" || token.isMark "[" do unexpected
    let _ ← g.pattern
  if (← atMark ":") || (← atMark ",") || (← atMark "?") || (← atMark "=") then return true
  if ← eatMark ")" then atMark "=>" else return false

/-- The type of a function or of a constructor. -/
def functionType : Parser TypeTree := do
  let start ← here
  let _ ← eatWord "abstract"
  let _ ← eatWord "new"
  let _ ← typeParameters g
  parameters g
  expectMark "=>"
  resultType g
  opaqueFrom start

/-- A type that is not a conditional one. -/
def unconditional (restricted : Bool) : Parser TypeTree := do
  let token ← ahead
  let next ← aheadTwo
  if (← atOpeningAngle) || (← startsFunction g) || token.isWord "new" ||
      (token.isWord "abstract" && next.isWord "new") then functionType g
  else unionType g restricted

/-- A type. -/
def fullType : Parser TypeTree := do
  let start ← here
  let checked ← unconditional g false
  if (← atWord "extends") && !(← atLineStart) then
    advance
    let _ ← unconditional g true
    expectMark "?"
    let _ ← g.type
    expectMark ":"
    let _ ← g.type
    opaqueFrom start
  else return checked

end Grammar

end SwiftBindings.Script
