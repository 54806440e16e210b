/-
**The grammar of expressions.**

From the loosest binding to the tightest: functions and assignments, conditions, binary operators by
their levels, prefix operators, calls and members, and the expressions without an operator. The
forms that table definitions are read from keep their structure, all others become `other`.
-/

import SwiftBindings.Script.TypeGrammar

namespace SwiftBindings.Script

namespace Grammar

variable (g : Grammar)

/-- A term of a form at the span from an offset to the last token read. -/
def termFrom (start : Nat) (form : FormTree) : Parser TermTree := do
  return ⟨form, ← spanFrom start⟩

/-- Expressions separated by commas. Two or more have no form of their own. -/
def sequence : Parser TermTree := do
  let start ← here
  let first ← g.expression
  iterate (fun (_ : TermTree) => do
    if ← eatMark "," then
      let _ ← g.expression
      return some (← termFrom start .other)
    return none) first

/-! ### Functions and classes -/

/-- Statements between braces. -/
def block : Parser Unit := do
  expectMark "\x7b"
  let _ ← manyUntil "\x7d" g.statement
  expectMark "\x7d"

/-- A function from its keyword on. A function without a body is a declaration. -/
def function : Parser Unit := do
  expectWord "function"
  let _ ← eatMark "*"
  if (← ahead).isAnyWord then advance
  signature g
  if ← atMark "\x7b" then block g else semicolon

/-- The key of a class member or of a property in an object literal. -/
inductive Key where
  /-- A word. -/
  | word (name : String)
  /-- A string or a number. -/
  | literal (key : KeyTree)
  /-- An expression between brackets. -/
  | computed (term : TermTree)
  /-- A key that is no property name. -/
  | other

/-- Reads a key. -/
def key : Parser Key := do
  let token ← ahead
  match token.kind with
  | .word name =>
    advance
    return .word name
  | .string value =>
    advance
    return .literal (.known value)
  | .number =>
    advance
    return .literal (.number ⟨token.start, token.stop⟩)
  | .bigint | .privateName =>
    advance
    return .other
  | .mark "[" =>
    advance
    let term ← g.expression
    expectMark "]"
    return .computed term
  | _ => unexpected

/-- Words that stand in front of the members of classes. -/
def memberWords : List String :=
  ["declare", "abstract", "static", "readonly", "override", "accessor", "async", "get", "set",
    "public", "private", "protected"]

/-- Reads one of the words where a member's key can still follow. -/
def eatMemberWord (words : List String) : Parser Bool := do
  match (← ahead).kind with
  | .word name =>
    let follows := match (← aheadTwo).kind with
      | .mark text => text ∈ ["[", "*"]
      | .finish | .invalid | .backquote => false
      | _ => true
    if name ∈ words && follows then
      advance
      return true
    return false
  | _ => return false

/-- A member of a class. -/
def classMember : Parser Unit := do
  if ← eatMark ";" then return
  if (← atWord "static") && (← aheadTwo).isMark "\x7b" then
    advance
    block g
    return
  iterate (fun _ => do
    if ← eatMemberWord memberWords then return some () else return none) ()
  let _ ← eatMark "*"
  if ← startsIndex then
    let _ ← indexMember g
    return
  let _ ← key g
  unless ← eatMark "?" do
    let _ ← eatMark "!"
  if (← atMark "(") || (← atOpeningAngle) then
    signature g
    if ← atMark "\x7b" then block g else semicolon
  else
    let _ ← annotation g
    if ← eatMark "=" then
      let _ ← g.expression
    semicolon

/-- Names of types with their arguments, separated by commas. -/
def typeNames : Parser Unit := do
  let _ ← g.type
  iterate (fun _ => do
    if ← eatMark "," then
      let _ ← g.type
      return some ()
    return none) ()

/-- A class from its keyword on, over a parser for the class it extends. -/
def classFrom (base : Parser TermTree) : Parser Unit := do
  expectWord "class"
  let token ← ahead
  if token.isIdentifier && !token.isWord "implements" then advance
  let _ ← typeParameters g
  if ← eatWord "extends" then
    let _ ← base
    let _ ← typeArgumentsIfAny g
  if ← eatWord "implements" then typeNames g
  expectMark "\x7b"
  let _ ← manyUntil "\x7d" (classMember g)
  expectMark "\x7d"

/-- The parameters of an arrow function up to and with its arrow. In a branch of a condition a colon
belongs to the condition. What is no type and arrow behind the parameters fails right behind them,
or at their parentheses where there are none. -/
def arrowHead (inBranch : Bool) : Parser Unit := do
  let _ ← typeParameters g
  let start ← here
  let empty := (← aheadTwo).isMark ")"
  parameters g
  let stop ← if empty then pure start else here
  let ending ← attempt do
    unless inBranch do resultAnnotation g
    if ← atLineStart then unexpected
    expectMark "=>"
  if ending.isNone then throw stop

/-- The body of an arrow function, over a parser for a body that is an expression. -/
def arrowBody (inner : Parser TermTree) : Parser Unit := do
  if ← atMark "\x7b" then block g
  else
    let _ ← inner

/-- A single parameter without parentheses, and its arrow. -/
def bareArrowHead : Parser Unit := do
  let _ ← identifier
  if ← atLineStart then unexpected
  expectMark "=>"

/-- The head of an arrow function, which may be asynchronous. -/
def anyArrowHead (inBranch : Bool) : Parser Unit := do
  let token ← ahead
  let next ← aheadTwo
  if token.isWord "async" && !next.lineBreak && !next.isMark "=>" then advance
  if (← ahead).isIdentifier then bareArrowHead else arrowHead g inBranch

/-! ### Objects and lists -/

/-- The entry that a key opens and a value or a method completes. -/
def keyedEntry (token : Token) (key : Key) : Parser EntryTree := do
  if ← eatMark ":" then
    let value ← g.expression
    match key with
    | .word name => return .property (.known name) value
    | .literal key => return .property key value
    | .computed term => return .computed term value
    | .other => return .other
  else if (← atMark "(") || (← atOpeningAngle) then
    signature g
    block g
    return .other
  else
    match key with
    | .word name =>
      unless token.isIdentifier do unexpected
      if ← eatMark "=" then
        let _ ← g.expression
        return .other
      return .property (.known name) ⟨.name name, ⟨token.start, token.stop⟩⟩
    | _ => unexpected

/-- An entry of an object literal. -/
def objectEntry : Parser EntryTree := do
  if ← eatMark "..." then return .spread (← g.expression)
  let marked ← eatMemberWord ["async", "get", "set"]
  let generator ← eatMark "*"
  let token ← ahead
  let key ← key g
  if marked || generator then
    signature g
    block g
    return .other
  keyedEntry g token key

/-- An object literal. -/
def objectLiteral : Parser FormTree := do
  expectMark "\x7b"
  let entries ← listUntil "\x7d" (objectEntry g)
  expectMark "\x7d"
  return .object entries

/-- An item of a list, or a hole before the next comma. -/
def arrayItem : Parser (Option TermTree) := do
  if ← atMark "," then return none
  let _ ← eatMark "..."
  return some (← g.expression)

/-- A list literal. -/
def arrayLiteral : Parser FormTree := do
  expectMark "["
  let items ← listUntil "]" (arrayItem g)
  expectMark "]"
  return .array (items.filterMap id)

/-! ### Expressions without an operator -/

/-- A regular expression that starts with the slash ahead. -/
def regularExpression : Parser Unit := do
  let token ← ahead
  let body := if token.isMark "/=" then '=' :: token.rest else token.rest
  match regexEnd? false body with
  | none => unexpected
  | some (read, rest) =>
    let flags := rest.takeWhile Text.isIdentifierPart
    let stop := token.start + 1 + Text.byteLength read + Text.byteLength flags
    resumeAt (nextToken (rest.drop flags.length) stop) stop

/-- A template, whose substitutions are expressions. -/
def templateLiteral : Parser Unit :=
  template do
    let _ ← sequence g

/-- Arguments between parentheses. -/
def arguments : Parser (List TermTree) := do
  expectMark "("
  let terms ← listUntil ")" do
    let _ ← eatMark "..."
    g.expression
  expectMark ")"
  return terms

/-- An import of a module by a call, or the description of the module itself. -/
def importExpression : Parser FormTree := do
  expectWord "import"
  if ← eatMark "." then
    let _ ← anyWord
  else
    let _ ← arguments g
  return .other

/-- The form of an expression that a word starts, over a parser for the class that a class extends
and a parser for what is constructed. -/
def wordForm (name : String) (base : Parser TermTree) (construction : Parser FormTree) :
    Parser FormTree := do
  let token ← ahead
  let next ← aheadTwo
  match name with
  | "true" =>
    advance
    return .boolean true
  | "false" =>
    advance
    return .boolean false
  | "this" | "null" | "super" =>
    advance
    return .other
  | "function" =>
    function g
    return .other
  | "class" =>
    classFrom g base
    return .other
  | "new" => construction
  | "import" => importExpression g
  | _ =>
    if name = "async" && next.isWord "function" && !next.lineBreak then
      advance
      function g
      return .other
    if token.isIdentifier then
      advance
      return .name name
    unexpected

/-- The form of an expression without an operator. -/
def primaryForm (base : Parser TermTree) (construction : Parser FormTree) : Parser FormTree := do
  let token ← ahead
  match token.kind with
  | .word name => wordForm g name base construction
  | .string value =>
    advance
    return .string value
  | .number =>
    advance
    return .number
  | .bigint | .privateName =>
    advance
    return .other
  | .backquote =>
    templateLiteral g
    return .other
  | .mark "(" =>
    if (← aheadTwo).isMark ")" then unexpected
    advance
    let inner ← sequence g
    expectMark ")"
    return .wrapped inner
  | .mark "[" => arrayLiteral g
  | .mark "\x7b" => objectLiteral g
  | .mark "/" | .mark "/=" =>
    regularExpression
    return .other
  | _ => unexpected

/-! ### Calls and members -/

/-- The token can be the first of an expression. -/
def startsExpression (token : Token) : Bool :=
  match token.kind with
  | .word name => name ∉ ["in", "instanceof", "of", "as", "satisfies"]
  | .string _ | .number | .bigint | .backquote | .privateName => true
  | .mark text => text ∈ ["(", "[", "\x7b", "+", "-", "!", "~", "++", "--", "/", "/=", "<"]
  | _ => false

/-- A term and whether one of its links is skipped where the value before it is absent. Such a chain
has no form of its own. -/
structure Chain where
  /-- The term so far. -/
  term : TermTree
  /-- A link may be skipped. -/
  skips : Bool

/-- The chain with another link, which started at an offset. -/
def Chain.extend (start : Nat) (chain : Chain) (form : FormTree) (skips : Bool) : Parser Chain := do
  let skips := chain.skips || skips
  return ⟨← termFrom start (if skips then .other else form), skips⟩

/-- A link behind the mark of a chain that may be skipped. -/
def optionalLink (start : Nat) (chain : Chain) : Parser Chain := do
  if ← atMark "(" then
    let _ ← arguments g
  else if ← eatMark "[" then
    let _ ← sequence g
    expectMark "]"
  else if (← ahead).kind == .privateName then advance
  else
    let _ ← anyWord
  chain.extend start .other true

/-- Type arguments that belong to a call or stand where an expression ends. -/
def instantiation : Parser Unit := do
  let _ ← typeArguments g
  let token ← ahead
  let continues := token.isMark "(" || token.kind == .backquote
  unless continues || token.lineBreak || !startsExpression token do unexpected

/-- One more link of a chain; `calls` tells whether calls belong to it. -/
def link? (start : Nat) (calls : Bool) (chain : Chain) : Parser (Option Chain) := do
  let token ← ahead
  match token.kind with
  | .mark "." =>
    advance
    if (← ahead).kind == .privateName then
      advance
      return some (← chain.extend start .other false)
    let property ← anyWord
    return some (← chain.extend start (.member chain.term property) false)
  | .mark "?." =>
    if calls then
      advance
      return some (← optionalLink g start chain)
    return none
  | .mark "[" =>
    advance
    let _ ← sequence g
    expectMark "]"
    return some (← chain.extend start .other false)
  | .mark "(" =>
    if calls then
      let terms ← arguments g
      return some (← chain.extend start (.call chain.term terms) false)
    return none
  | .backquote =>
    templateLiteral g
    return some (← chain.extend start .other false)
  | .mark "!" =>
    if token.lineBreak then return none
    advance
    return some ⟨← termFrom start (.wrapped chain.term), chain.skips⟩
  | .mark "<" | .mark "<<" =>
    match ← attempt (instantiation g) with
    | none => return none
    | some _ =>
      if calls && (← atMark "(") then
        let terms ← arguments g
        return some (← chain.extend start (.call chain.term terms) false)
      return some (← chain.extend start .other false)
  | _ => return none

/-- Members and calls of an expression; the first argument bounds the nesting of constructions. -/
def chainOf (calls : Bool) : Nat → Parser TermTree
  | 0 => unexpected
  | depth + 1 => do
    let start ← here
    let construction : Parser FormTree := do
      expectWord "new"
      if ← eatMark "." then
        let _ ← anyWord
      else
        let _ ← chainOf false depth
        let _ ← attempt (typeArguments g)
        if ← atMark "(" then
          let _ ← arguments g
      return .other
    let form ← primaryForm g (chainOf true depth) construction
    let first : Chain := ⟨← termFrom start form, false⟩
    return (← iterate (link? g start calls) first).term

/-- Members and calls of an expression. -/
def chain : Parser TermTree := do
  chainOf g true ((← ahead).rest.length + 2)

/-! ### Prefix operators -/

/-- The operators in front of an operand. -/
inductive PrefixOperator where
  /-- The minus sign. -/
  | minus
  /-- An assertion that the operand is constant. -/
  | constant
  /-- Any other operator. -/
  | other

/-- Reads an operator in front of an operand. -/
def prefixOperator? : Parser (Option PrefixOperator) := do
  let token ← ahead
  match token.kind with
  | .mark "-" =>
    advance
    return some .minus
  | .mark "!" | .mark "~" | .mark "+" | .mark "++" | .mark "--" =>
    advance
    return some .other
  | .word "typeof" | .word "void" | .word "delete" | .word "await" =>
    advance
    return some .other
  | .mark "<" =>
    advance
    if ← eatWord "const" then
      expectMark ">"
      return some .constant
    let _ ← g.type
    expectMark ">"
    return some .other
  | _ => return none

/-- An operand with its operators, those in front and the steps behind it. -/
def prefixed : Parser TermTree := do
  let operators ← iterate (fun (read : List (PrefixOperator × Nat)) => do
    let start ← here
    match ← prefixOperator? g with
    | some operator => return some ((operator, start) :: read)
    | none => return none) []
  let start ← here
  let operand ← chain g
  let token ← ahead
  let stepped := (token.isMark "++" || token.isMark "--") && !token.lineBreak
  if stepped then advance
  let first ← if stepped then termFrom start .other else pure operand
  operators.foldlM (fun term entry => termFrom entry.2 (match entry.1 with
    | .minus => .minus term
    | .constant => .wrapped term
    | .other => .other)) first

/-! ### Binary operators -/

/-- The binary operators by level, the loosest level first. -/
def binaryLevels : List (List String) :=
  [["??"], ["||"], ["&&"], ["|"], ["^"], ["&"], ["==", "!=", "===", "!=="], ["<", ">", "<=", ">="],
    ["<<", ">>", ">>>"], ["+", "-"], ["*", "/", "%"], ["**"]]

/-- The operators that assign. -/
def assignmentMarks : List String :=
  ["=", "+=", "-=", "*=", "/=", "%=", "**=", "<<=", ">>=", ">>>=", "&=", "|=", "^=", "&&=", "||=",
    "??="]

/-- The operator ahead, and how many characters it has beyond the token ahead. Operators that start
with a closing angle bracket are put together here. -/
def operatorAhead : Parser (String × Nat) := do
  let token ← ahead
  match token.kind, token.rest with
  | .mark ">", '>' :: '>' :: '=' :: _ => return (">>>=", 3)
  | .mark ">", '>' :: '>' :: _ => return (">>>", 2)
  | .mark ">", '>' :: '=' :: _ => return (">>=", 2)
  | .mark ">", '>' :: _ => return (">>", 1)
  | .mark ">", '=' :: _ => return (">=", 1)
  | .mark text, _ => return (text, 0)
  | .word name, _ => return (name, 0)
  | _, _ => return ("", 0)

/-- Reads the operator ahead. -/
def advanceOperator (extra : Nat) : Parser Unit := do
  let token ← ahead
  let stop := token.stop + extra
  resumeAt (nextToken (token.rest.drop extra) stop) stop

/-- The level at which types are asserted and values are compared. -/
def comparisonLevel : List String := ["<", ">", "<=", ">="]

/-- One more operator and operand of a level behind a term that started at an offset. -/
def operation? (operators : List String) (operand : Parser TermTree) (start : Nat)
    (left : TermTree) : Parser (Option TermTree) := do
  let (operator, extra) ← operatorAhead
  let token ← ahead
  let compares := operators == comparisonLevel
  if compares && !token.lineBreak && (token.isWord "as" || token.isWord "satisfies") then
    advance
    unless token.isWord "as" && (← eatWord "const") do
      let _ ← g.type
    return some (← termFrom start (.wrapped left))
  let isWordOperator := compares && (token.isWord "in" || token.isWord "instanceof")
  if isWordOperator || (!token.isAnyWord && operator ∈ operators) then
    advanceOperator extra
    let _ ← operand
    return some (← termFrom start .other)
  return none

/-- Operands joined by the operators of the given levels. -/
def binary : List (List String) → Parser TermTree
  | [] => prefixed g
  | operators :: tighter => do
    let start ← here
    let first ← binary tighter
    iterate (operation? g operators (binary tighter) start) first

/-! ### Assignments -/

/-- A value handed out by a generator. -/
def yielded : Parser TermTree := do
  let start ← here
  expectWord "yield"
  let token ← ahead
  let _ ← eatMark "*"
  if !token.lineBreak && (token.isMark "*" || startsExpression token) then
    let _ ← g.expression
  termFrom start .other

/-- A condition, an assignment, or an operand of one, over a parser for what is assigned. -/
def conditional (inner : Parser TermTree) : Parser TermTree := do
  let start ← here
  let left ← binary g binaryLevels
  if ← eatMark "?" then
    let _ ← g.branch
    expectMark ":"
    let _ ← g.expression
    termFrom start .other
  else
    let (operator, extra) ← operatorAhead
    if operator ∈ assignmentMarks then
      advanceOperator extra
      let _ ← inner
      termFrom start .other
    else return left

/-- An expression without commas. The flag tells that it is a branch of a condition. -/
def assignment (inBranch : Bool) : Parser TermTree := do
  let start ← here
  let inner := if inBranch then g.branch else g.expression
  if ← atWord "yield" then yielded g
  else
    match ← probe (anyArrowHead g inBranch) with
    | .ok _ =>
      arrowBody g inner
      termFrom start .other
    | .error offset => notBefore offset (conditional g inner)

/-! ### Patterns -/

/-- A property of an object pattern. -/
def patternProperty : Parser Unit := do
  if ← eatMark "..." then
    let _ ← g.pattern
  else
    let token ← ahead
    let _ ← key g
    if ← eatMark ":" then
      let _ ← g.pattern
    else
      unless token.isIdentifier do unexpected
    if ← eatMark "=" then
      let _ ← g.expression

/-- An item of a list pattern. -/
def patternItem : Parser Unit := do
  unless ← atMark "," do
    let _ ← eatMark "..."
    let _ ← g.pattern
    if ← eatMark "=" then
      let _ ← g.expression

/-- The target of a declaration: a name, or a pattern of names. -/
def bindingPattern : Parser (Option String) := do
  let token ← ahead
  match token.kind with
  | .mark "\x7b" =>
    advance
    let _ ← listUntil "\x7d" (patternProperty g)
    expectMark "\x7d"
    return none
  | .mark "[" =>
    advance
    let _ ← listUntil "]" (patternItem g)
    expectMark "]"
    return none
  | _ => return some (← identifier)

end Grammar

end SwiftBindings.Script
