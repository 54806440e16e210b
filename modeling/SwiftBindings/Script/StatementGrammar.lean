/-
**The grammar of statements and modules.**

Statements are read to the end of the text. What remains of them is what they contribute to a
module: declared types and values, variables with their first values, lists of exports and default
exports.
-/

import SwiftBindings.Script.ExpressionGrammar

namespace SwiftBindings.Script

namespace Grammar

variable (g : Grammar)

/-! ### Variables -/

/-- A variable with its annotation and its first value. -/
def declarator (exported : Bool) : Parser (List StatementTree) := do
  let name ← g.pattern
  let _ ← eatMark "!"
  let type ← annotation g
  let initial ← if ← eatMark "=" then some <$> g.expression else pure none
  let declared := match name, type with
    | some name, some type => [.declaration (.value name type exported)]
    | _, _ => []
  let bound := match name, initial with
    | some name, some initial => [.binding name initial]
    | _, _ => []
  return declared ++ bound

/-- Variables behind their keyword, without the end of the statement. -/
def declarators (exported : Bool) : Parser (List StatementTree) := do
  advance
  let first ← declarator g exported
  iterate (fun (read : List StatementTree) => do
    if ← eatMark "," then return some (read ++ (← declarator g exported)) else return none) first

/-- A statement that declares variables. -/
def variableStatement (exported : Bool) : Parser (List StatementTree) := do
  let items ← declarators g exported
  semicolon
  return items

/-- The token ahead declares variables; the word may also be a name. -/
def startsVariables : Parser Bool := do
  let token ← ahead
  let next ← aheadTwo
  return token.isWord "const" || token.isWord "var" ||
    (token.isWord "let" && (next.isAnyWord || next.isMark "[" || next.isMark "\x7b"))

/-- Variables that are disposed of at the end of their block are declared ahead, in a loop or
elsewhere. Such variables have no part in table definitions. -/
def startsUsing (inLoop : Bool) : Parser Bool :=
  foresee do
    if (← atWord "await") && (← aheadTwo).isWord "using" && !(← aheadTwo).lineBreak then advance
    let token ← ahead
    let next ← aheadTwo
    return token.isWord "using" && next.isIdentifier && !next.lineBreak &&
      !(inLoop && next.isWord "of")

/-! ### Declared types -/

/-- A name for a type, behind its keyword. -/
def typeAlias (exported : Bool) : Parser (List StatementTree) := do
  let name ← anyWord
  let parameters ← typeParameters g
  expectMark "="
  let type ← g.type
  semicolon
  return [.declaration (.typeAlias name parameters type exported)]

/-- A base that is no name and cannot be followed. -/
def unnamedBase : Parser TypeTree := do
  let start ← here
  let name ← anyWord
  let first ← termFrom start (.name name)
  let _ ← iterate (link? g start false) ⟨first, false⟩
  let _ ← typeArgumentsIfAny g
  opaqueFrom start

/-- A dotted name with type arguments, the usual base of an interface. -/
def namedBase : Parser TypeTree := do
  let name ← entityName
  let arguments ← typeArgumentsIfAny g
  unless (← atMark ",") || (← atMark "\x7b") do unexpected
  return .reference name arguments

/-- A base of an interface. -/
def base : Parser TypeTree := do
  match ← attempt (namedBase g) with
  | some type => return type
  | none => unnamedBase g

/-- Bases separated by commas. -/
def bases : Parser (List TypeTree) := do
  let read ← iterate (fun (read : List TypeTree) => do
    if ← atMark "\x7b" then return none
    let type ← base g
    unless ← eatMark "," do
      unless ← atMark "\x7b" do unexpected
    return some (type :: read)) []
  return read.reverse

/-- An interface, behind its keyword. -/
def interface (exported : Bool) : Parser (List StatementTree) := do
  let name ← anyWord
  let parameters ← typeParameters g
  let extended ← if ← eatWord "extends" then bases g else pure []
  let members ← objectMembers g
  return [.declaration (.interface name parameters extended members exported)]

/-- A member of an enumeration. -/
def enumerationMember : Parser Unit := do
  let _ ← key g
  if ← eatMark "=" then
    let _ ← g.expression

/-- An enumeration, behind its keyword. -/
def enumeration : Parser Unit := do
  let _ ← identifier
  expectMark "\x7b"
  let _ ← listUntil "\x7d" (enumerationMember g)
  expectMark "\x7d"

/-- The statements of a namespace between braces. -/
def namespaceBody : Parser Unit := do
  expectMark "\x7b"
  let _ ← manyUntil "\x7d" g.moduleItem
  expectMark "\x7d"

/-- A namespace or a module, behind its keyword. A module may be named by a string and have no body.
-/
def namespaceDeclaration : Parser Unit := do
  match (← ahead).kind with
  | .string _ =>
    advance
    if ← atMark "\x7b" then namespaceBody g else semicolon
  | _ =>
    let _ ← identifier
    iterate (fun _ => do
      if ← eatMark "." then
        let _ ← anyWord
        return some ()
      return none) ()
    namespaceBody g

/-! ### Declarations behind a word that is no keyword -/

/-- A declaration that a word other than a keyword starts. The flag tells that only a declaration
can stand here, because a keyword in front demands one; otherwise the word may be a variable. -/
def softDeclaration? (demanded exported : Bool) : Parser (Option (List StatementTree)) := do
  let token ← ahead
  let next ← aheadTwo
  let named := next.isIdentifier && !next.lineBreak
  match token.kind with
  | .word "type" =>
    if demanded || named then
      advance
      return some (← typeAlias g exported)
    return none
  | .word "interface" =>
    if demanded || named then
      advance
      return some (← interface g exported)
    return none
  | .word "namespace" =>
    if demanded || named then
      advance
      namespaceDeclaration g
      return some []
    return none
  | .word "module" =>
    let quoted := match next.kind with
      | .string _ => !next.lineBreak
      | _ => false
    if demanded || named || quoted then
      advance
      namespaceDeclaration g
      return some []
    return none
  | .word "enum" =>
    advance
    enumeration g
    return some []
  | .word "abstract" =>
    if demanded || (next.isWord "class" && !next.lineBreak) then
      advance
      classFrom g (chain g)
      return some []
    return none
  | .word "global" =>
    if next.isMark "\x7b" then
      advance
      namespaceBody g
      return some []
    return none
  | _ => return none

/-- A declaration behind a keyword that every reader knows. -/
def hardDeclaration? (exported : Bool) : Parser (Option (List StatementTree)) := do
  let token ← ahead
  let next ← aheadTwo
  if token.isWord "const" && next.isWord "enum" then
    advance
    advance
    enumeration g
    return some []
  if ← startsVariables then return some (← variableStatement g exported)
  match token.kind with
  | .word "function" =>
    function g
    return some []
  | .word "class" =>
    classFrom g (chain g)
    return some []
  | .word "async" =>
    if next.isWord "function" && !next.lineBreak then
      advance
      function g
      return some []
    return none
  | _ => return none

/-- A declaration behind the word that says it is only declared. -/
def ambient? (exported : Bool) : Parser (Option (List StatementTree)) := do
  match ← hardDeclaration? g exported with
  | some items => return some items
  | none => softDeclaration? g true exported

/-- The words that can follow the word that says something is only declared. -/
def ambientWords : List String :=
  ["const", "var", "let", "function", "class", "enum", "type", "interface", "namespace", "module",
    "abstract", "global"]

/-- The word that says something is only declared is ahead, and so is a declaration. -/
def startsAmbient : Parser Bool := do
  match (← aheadTwo).kind with
  | .word name => return (← atWord "declare") && name ∈ ambientWords
  | _ => return false

/-- A declaration that is not exported. -/
def declaration? : Parser (Option (List StatementTree)) := do
  if ← startsAmbient then
    advance
    ambient? g false
  else if ← startsUsing false then
    let _ ← eatWord "await"
    let _ ← variableStatement g false
    return some []
  else
    match ← hardDeclaration? g false with
    | some items => return some items
    | none => softDeclaration? g false false

/-! ### Statements -/

/-- An expression between parentheses. -/
def parenthesized : Parser Unit := do
  expectMark "("
  let _ ← sequence g
  expectMark ")"

/-- The head of a loop that counts or that runs over a collection. -/
def forHead : Parser Unit := do
  let _ ← eatWord "await"
  expectMark "("
  unless ← atMark ";" do
    let disposed ← startsUsing true
    if disposed then
      let _ ← eatWord "await"
    if disposed || (← startsVariables) then
      advance
      let _ ← g.pattern
      let _ ← annotation g
      if ← eatMark "=" then
        let _ ← g.expression
      iterate (fun _ => do
        if ← eatMark "," then
          let _ ← declarator g false
          return some ()
        return none) ()
    else
      let _ ← sequence g
  if (← eatWord "of") || (← eatWord "in") then
    let _ ← sequence g
  else
    unless ← atMark ")" do
      expectMark ";"
      unless ← atMark ";" do
        let _ ← sequence g
      expectMark ";"
      unless ← atMark ")" do
        let _ ← sequence g
  expectMark ")"

/-- A branch of a selection by value. -/
def switchCase : Parser Unit := do
  if ← eatWord "default" then pure ()
  else
    expectWord "case"
    let _ ← sequence g
  expectMark ":"
  iterate (fun _ => do
    if (← atWord "case") || (← atWord "default") || (← atMark "\x7d") then return none
    let _ ← g.statement
    return some ()) ()

/-- The handlers of a guarded block. -/
def handlers : Parser Unit := do
  let caught ← eatWord "catch"
  if caught then
    if ← eatMark "(" then
      let _ ← g.pattern
      let _ ← annotation g
      expectMark ")"
    block g
  if ← eatWord "finally" then block g
  else
    unless caught do unexpected

/-- A statement that a keyword starts and that declares nothing. -/
def keywordStatement (name : String) : Parser Bool := do
  match name with
  | "if" =>
    advance
    parenthesized g
    let _ ← g.statement
    if ← eatWord "else" then
      let _ ← g.statement
    return true
  | "for" =>
    advance
    forHead g
    let _ ← g.statement
    return true
  | "while" | "with" =>
    advance
    parenthesized g
    let _ ← g.statement
    return true
  | "do" =>
    advance
    let _ ← g.statement
    expectWord "while"
    parenthesized g
    let _ ← eatMark ";"
    return true
  | "return" =>
    advance
    let token ← ahead
    if startsExpression token && !token.lineBreak then
      let _ ← sequence g
    semicolon
    return true
  | "throw" =>
    advance
    let _ ← sequence g
    semicolon
    return true
  | "break" | "continue" =>
    advance
    let token ← ahead
    if token.isIdentifier && !token.lineBreak then advance
    semicolon
    return true
  | "debugger" =>
    advance
    semicolon
    return true
  | "switch" =>
    advance
    parenthesized g
    expectMark "\x7b"
    let _ ← manyUntil "\x7d" (switchCase g)
    expectMark "\x7d"
    return true
  | "try" =>
    advance
    block g
    handlers g
    return true
  | _ => return false

/-- An expression as a statement, or a statement with a label. -/
def expressionStatement : Parser Unit := do
  let token ← ahead
  if token.isIdentifier && (← aheadTwo).isMark ":" then
    advance
    advance
    let _ ← g.statement
  else
    let _ ← sequence g
    semicolon

/-- A statement. -/
def anyStatement : Parser (List StatementTree) := do
  let token ← ahead
  if token.isMark "\x7b" then
    block g
    return []
  if ← eatMark ";" then return []
  match ← declaration? g with
  | some items => return items
  | none =>
    let read ← match token.kind with
      | .word name => keywordStatement g name
      | _ => pure false
    unless read do expressionStatement g
    return []

/-! ### Imports -/

/-- The name under which something is exported: a word or a string. -/
def exportName : Parser String := do
  match (← ahead).kind with
  | .string value =>
    advance
    return value
  | _ => anyWord

/-- The attributes that may follow the name of a module. -/
def importAttributes : Parser Unit := do
  if (← atWord "with") || ((← atWord "assert") && !(← atLineStart)) then
    advance
    let _ ← objectLiteral g

/-- The name of a module. -/
def moduleName : Parser Unit := do
  match (← ahead).kind with
  | .string _ => advance
  | _ => unexpected

/-- The name of a module and the end of the statement. -/
def fromModule : Parser Unit := do
  moduleName
  importAttributes g
  semicolon

/-- Names inside an import's braces. -/
def importNames : Parser Unit := do
  expectMark "\x7b"
  let _ ← listUntil "\x7d" importedName
  expectMark "\x7d"
where
  /-- A name, which may be marked as a type and may be renamed. -/
  importedName : Parser Unit := do
    let first ← exportName
    let token ← ahead
    if first == "type" && token.isAnyWord && !token.isWord "as" then advance
    iterate (fun _ => do
      if ← eatWord "as" then
        unless (← atMark ",") || (← atMark "\x7d") do
          unless first == "type" && (← atWord "as") do
            let _ ← anyWord
        return some ()
      return none) ()

/-- All names of a module under one name. -/
def wholeModule : Parser Unit := do
  expectMark "*"
  expectWord "as"
  let _ ← identifier

/-- What an import binds, up to the word in front of the module's name. -/
def importClause : Parser Unit := do
  if ← atMark "\x7b" then importNames
  else if ← atMark "*" then wholeModule
  else
    let _ ← identifier
    if ← eatMark "," then
      if ← atMark "\x7b" then importNames else wholeModule
  expectWord "from"

/-- An import that gives another module or namespace a name. -/
def importAlias : Parser Unit := do
  let _ ← identifier
  expectMark "="
  if (← atWord "require") && (← aheadTwo).isMark "(" then
    advance
    expectMark "("
    moduleName
    expectMark ")"
  else
    let _ ← entityName
  semicolon

/-- An import behind its keyword. -/
def importRest : Parser Unit := do
  let token ← ahead
  let next ← aheadTwo
  match token.kind with
  | .string _ => fromModule g
  | _ =>
    let marksType := token.isWord "type" &&
      (next.isMark "\x7b" || next.isMark "*" || (next.isAnyWord && !next.isWord "from"))
    if marksType then advance
    if (← ahead).isIdentifier && (← aheadTwo).isMark "=" then importAlias
    else
      importClause
      fromModule g

/-! ### Exports -/

/-- The local name and the exported name of an entry in an export's braces. The entry may be marked
as a type by a word that is also a name. -/
def exportEntry : Parser (String × String) := do
  let first ← exportName
  if first == "type" && (← ahead).isAnyWord then
    let second ← anyWord
    if second == "as" then
      unless (← ahead).isAnyWord do return ("as", "as")
      let third ← anyWord
      if third == "as" && (← ahead).isAnyWord then
        return ("as", ← anyWord)
      return ("type", third)
    renamed second
  else renamed first
where
  /-- The name, with the name it is exported under. -/
  renamed (name : String) : Parser (String × String) := do
    if ← eatWord "as" then return (name, ← exportName) else return (name, name)

/-- Names inside an export's braces. Names of another module are not declared here. -/
def exportNames : Parser (List StatementTree) := do
  expectMark "\x7b"
  let names ← listUntil "\x7d" exportEntry
  expectMark "\x7d"
  if ← eatWord "from" then
    fromModule g
    return []
  semicolon
  return [.declaration (.exports names)]

/-- All names of another module. -/
def exportAll : Parser (List StatementTree) := do
  expectMark "*"
  if ← eatWord "as" then
    let _ ← exportName
  expectWord "from"
  fromModule g
  return []

/-- The default export behind its keyword. -/
def exportDefault : Parser (List StatementTree) := do
  let token ← ahead
  let next ← aheadTwo
  if token.isWord "function" || (token.isWord "async" && next.isWord "function" && !next.lineBreak) then
    let _ ← eatWord "async"
    function g
    return []
  if token.isWord "class" then
    classFrom g (chain g)
    return []
  if token.isWord "abstract" && next.isWord "class" then
    advance
    classFrom g (chain g)
    return []
  if token.isWord "interface" && next.isIdentifier && !next.lineBreak then
    advance
    let _ ← interface g false
    return []
  let value ← g.expression
  semicolon
  return [.defaultExport value]

/-- An export of names, behind the word that marks them all as types where it is there. -/
def exportClause : Parser (List StatementTree) := do
  if ← atMark "*" then exportAll g else exportNames g

/-- An exported declaration whose word is no keyword. One that cannot be read to its end is none. -/
def exportedType? : Parser (Option (List StatementTree)) := do
  match (← ahead).kind with
  | .word name =>
    if name ∈ ["type", "interface", "enum", "namespace", "module", "abstract"] then
      return (← attempt (softDeclaration? g true true)).bind id
    return none
  | _ => return none

/-- An export behind its keyword that is no declaration of a type. -/
def exportOther : Parser (List StatementTree) := do
  let token ← ahead
  let next ← aheadTwo
  if ← eatWord "default" then exportDefault g
  else if ← eatMark "=" then
    let _ ← g.expression
    semicolon
    return []
  else if token.isWord "as" && next.isWord "namespace" then
    advance
    advance
    let _ ← anyWord
    semicolon
    return []
  else if ← eatWord "import" then
    if (← atWord "type") && (← aheadTwo).isIdentifier then advance
    importAlias
    return []
  else if ← eatWord "type" then exportClause g
  else
    match ← hardDeclaration? g true with
    | some items => return items
    | none => exportClause g

/-- An export behind its keyword, and behind the word that says it is only declared. -/
def exportPlain : Parser (List StatementTree) := do
  match ← exportedType? g with
  | some items => return items
  | none => exportOther g

/-- An export behind its keyword. -/
def exportRest : Parser (List StatementTree) := do
  if ← eatWord "declare" then
    match ← ambient? g true with
    | some items => return items
    | none => exportPlain g
  else exportPlain g

/-- A statement at the top level of a module. -/
def topItem : Parser (List StatementTree) := do
  let token ← ahead
  let next ← aheadTwo
  if token.isWord "import" && !next.isMark "(" && !next.isMark "." then
    advance
    importRest g
    return []
  if token.isWord "export" then
    advance
    exportRest g
  else anyStatement g

end Grammar

/-! ### The whole grammar -/

/-- The grammar up to a depth of nesting. -/
def Grammar.ofDepth : Nat → Grammar
  | 0 => .flat
  | depth + 1 => {
      type := fun cursor => (fullType (ofDepth depth)) cursor
      unconditionalType := fun restricted cursor =>
        (unconditional (ofDepth depth) restricted) cursor
      expression := fun cursor => (assignment (ofDepth depth) false) cursor
      branch := fun cursor => (assignment (ofDepth depth) true) cursor
      pattern := fun cursor => (bindingPattern (ofDepth depth)) cursor
      statement := fun cursor => (anyStatement (ofDepth depth)) cursor
      moduleItem := fun cursor => (topItem (ofDepth depth)) cursor }

end SwiftBindings.Script
