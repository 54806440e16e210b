/-
**Reading TOML.**

A reader takes characters off the front of a text or fails. A document is a list of lines: headers
of tables and keys with values. Lists may go over several lines, tables between braces may not.
Lists of tables, which are written with doubled brackets, are refused.
-/

import SwiftBindings.Toml.Basic
import SwiftBindings.Toml.Scalar

namespace SwiftBindings.Toml

/-- A step that takes characters off a text, or fails. -/
abbrev Reader := StateT (List Char) Option

/-! ### Characters -/

/-- The next character, left in place. -/
def next? : Reader (Option Char) := do return (← get).head?

/-- Takes the given character. -/
def take (c : Char) : Reader Unit := do
  match ← get with
  | first :: rest => if first = c then set rest else failure
  | [] => failure

/-- Takes the given character where it stands. -/
def takes (c : Char) : Reader Bool := do
  match ← get with
  | first :: rest => if first = c then do set rest; return true else return false
  | [] => return false

/-- Takes the characters up to the first that fails the test. -/
def takeWhile (test : Char → Bool) : Reader (List Char) := do
  let chars ← get
  set (chars.dropWhile test)
  return chars.takeWhile test

/-- Number of characters that are left. -/
def remaining : Reader Nat := do return (← get).length

/-- A space or a tab. -/
def isGap (c : Char) : Bool := c == ' ' || c == '\t'

/-- A character that may stand in strings and comments. -/
def isPlain (c : Char) : Bool := c == '\t' || (0x20 ≤ c.toNat && c != '\x7f')

/-- Skips spaces and tabs. -/
def gap : Reader Unit := discard (takeWhile isGap)

/-- Takes a line break where one stands. -/
def lineBreak? : Reader Bool := do
  match ← get with
  | '\n' :: rest => set rest; return true
  | '\r' :: '\n' :: rest => set rest; return true
  | _ => return false

/-- Skips a comment where one stands. -/
def comment : Reader Unit := do
  if ← takes '#' then discard (takeWhile isPlain)

/-- The rest of a line without further content, up to its end. -/
def lineEnd : Reader Unit := do
  gap
  comment
  if !(← lineBreak?) then
    if (← next?).isSome then failure

/-- Skips spaces, comments and line breaks; at most so many lines. -/
def space : Nat → Reader Unit
  | 0 => failure
  | lines + 1 => do
    gap
    if (← next?) == some '#' then
      comment
      if ← lineBreak? then space lines else failure
    else if ← lineBreak? then space lines

/-- Skips spaces, comments and line breaks. -/
def anySpace : Reader Unit := do space ((← remaining) + 1)

/-! ### Strings -/

/-- The character with the code that the next hexadecimal digits give. -/
def codePoint (digits : Nat) : Reader Char := do
  let chars ← get
  let code := chars.take digits
  if code.length == digits && code.all (isDigitIn 16) then
    let value := valueIn 16 code
    if value.isValidChar then
      set (chars.drop digits)
      return Char.ofNat value
    else failure
  else failure

/-- The character behind a backslash. -/
def escaped : Reader Char := do
  match ← get with
  | c :: rest =>
    set rest
    match c with
    | 'b' => return '\x08'
    | 't' => return '\t'
    | 'n' => return '\n'
    | 'f' => return '\x0c'
    | 'r' => return '\r'
    | '"' => return '"'
    | '\\' => return '\\'
    | 'u' => codePoint 4
    | 'U' => codePoint 8
    | _ => failure
  | [] => failure

/-- A string on one line up to its closing quote, with at most so many characters. The flag says
whether a backslash escapes. -/
def lineString (quote : Char) (escapes : Bool) : Nat → Reader (List Char)
  | 0 => failure
  | count + 1 => do
    match ← get with
    | [] => failure
    | c :: rest =>
      set rest
      if c = quote then return []
      else if escapes && c == '\\' then
        let c ← escaped
        return c :: (← lineString quote escapes count)
      else if isPlain c then return c :: (← lineString quote escapes count)
      else failure

/-- Skips spaces and line breaks. -/
def breaks : Nat → Reader Unit
  | 0 => failure
  | count + 1 => do
    gap
    if ← lineBreak? then breaks count

/-- A backslash that ends its line stands before the spaces and line breaks up to the next
character; takes them. -/
def joinedLines : Reader Bool := do
  let chars ← get
  gap
  if ← lineBreak? then
    breaks ((← remaining) + 1)
    return true
  else
    set chars
    return false

/-- A string over several lines up to its closing quotes, with at most so many characters. Up to two
quotes right before the closing ones belong to the string. -/
def linesString (quote : Char) (escapes : Bool) : Nat → Reader (List Char)
  | 0 => failure
  | count + 1 => do
    let chars ← get
    let quotes := (chars.takeWhile (· == quote)).length
    if 3 ≤ quotes then
      let inner := min (quotes - 3) 2
      set (chars.drop (inner + 3))
      return List.replicate inner quote
    else if ← lineBreak? then return '\n' :: (← linesString quote escapes count)
    else
      match chars with
      | [] => failure
      | c :: rest =>
        set rest
        if escapes && c == '\\' then
          if ← joinedLines then linesString quote escapes count
          else
            let c ← escaped
            return c :: (← linesString quote escapes count)
        else if isPlain c then return c :: (← linesString quote escapes count)
        else failure

/-- A string that starts with the given quote. -/
def quotedText (quote : Char) (severalLines : Bool) : Reader String := do
  let escapes := quote == '"'
  let chars ← get
  let opening := (chars.takeWhile (· == quote)).length
  if severalLines && 3 ≤ opening then
    set (chars.drop 3)
    discard lineBreak?
    return String.ofList (← linesString quote escapes ((← remaining) + 1))
  else
    take quote
    return String.ofList (← lineString quote escapes ((← remaining) + 1))

/-! ### Keys -/

/-- A character of a key without quotes. -/
def isKeyChar (c : Char) : Bool :=
  isDigit c || ('a' ≤ c && c ≤ 'z') || ('A' ≤ c && c ≤ 'Z') || c == '-' || c == '_'

/-- One name of a key, with the spaces around it. -/
def keyName : Reader String := do
  gap
  let name ← match ← next? with
    | some '"' => quotedText '"' false
    | some '\'' => quotedText '\'' false
    | _ =>
      let chars ← takeWhile isKeyChar
      if chars.isEmpty then failure else pure (String.ofList chars)
  gap
  return name

/-- The names of a key with dots between them, at most so many. -/
def keyNames : Nat → Reader (List String)
  | 0 => failure
  | count + 1 => do
    let name ← keyName
    if ← takes '.' then return name :: (← keyNames count) else return [name]

/-- The greatest depth of lists and tables inside each other, and of names in a key. -/
def deepest : Nat := 79

/-- A key. -/
def key : Reader (List String) := keyNames deepest

/-! ### Values -/

/-- Characters of numbers, dates and words. -/
def isScalarChar (c : Char) : Bool := isKeyChar c || c == '+' || c == '.' || c == ':'

/-- A truth value, a number or a date. -/
def scalar : Reader Value := do
  let first ← takeWhile isScalarChar
  let chars ← get
  let chars ← match chars with
    | ' ' :: c :: _ =>
      if isDate first && isDigit c then do
        set (chars.drop 1)
        pure (first ++ ' ' :: (← takeWhile isScalarChar))
      else pure first
    | _ => pure first
  if chars == ['t', 'r', 'u', 'e'] then return .boolean true
  else if chars == ['f', 'a', 'l', 's', 'e'] then return .boolean false
  else if isInteger chars || isFraction chars then return .number (String.ofList chars)
  else if isMoment chars then return .moment (String.ofList chars)
  else failure

/-- Items with commas between them up to a closing bracket, at most so many. The flag says whether a
comma may follow the last item. -/
def items {α : Type} (between : Reader Unit) (item : Reader α) (last : Bool) (closing : Char) :
    Nat → Reader (List α)
  | 0 => failure
  | count + 1 => do
    let first ← item
    between
    if ← takes closing then return [first]
    else
      take ','
      between
      if last && (← takes closing) then return [first]
      else return first :: (← items between item last closing count)

/-- Items between brackets, of which the first is taken. -/
def bracketed {α : Type} (between : Reader Unit) (item : Reader α) (last : Bool) (closing : Char) :
    Reader (List α) := do
  between
  if ← takes closing then return []
  else items between item last closing ((← remaining) + 1)

/-- A key with its value, of which a reader is given. -/
def keyWith (value : Reader Value) : Reader (List String × Value) := do
  let names ← key
  take '='
  gap
  let value ← value
  gap
  return (names, value)

/-- The table that keys with values make, one after the other. -/
def tableOf (lines : List (List String × Value)) : Option Members :=
  lines.foldlM (fun members line => members.assign line.2 line.1) []

/-- A value, with lists and tables inside each other to a depth. -/
def value : Nat → Reader Value
  | 0 => failure
  | depth + 1 => do
    match ← next? with
    | some '"' => return .string (← quotedText '"' true)
    | some '\'' => return .string (← quotedText '\'' true)
    | some '[' =>
      take '['
      return .array (← bracketed anySpace (value depth) true ']')
    | some '\x7b' =>
      take '\x7b'
      let lines ← bracketed gap (keyWith (value depth)) false '\x7d'
      return .table .braces (← tableOf lines)
    | _ => scalar

/-! ### Documents -/

/-- The lines of a document, at most so many, added to the table at a path of an outer table. -/
def lines (path : List String) (root : Members) : Nat → Reader Members
  | 0 => failure
  | count + 1 => do
    gap
    match ← next? with
    | none => return root
    | some '[' =>
      take '['
      let names ← key
      take ']'
      lineEnd
      lines names (← Members.openTable names root) count
    | some '#' | some '\n' | some '\r' =>
      lineEnd
      lines path root count
    | _ =>
      let (names, value) ← keyWith (value (deepest + 1))
      lineEnd
      lines path (← Members.inside (Members.assign value names) path root) count

/-- The table that a text describes. -/
def Members.read? (text : String) : Option Members :=
  let chars := match text.toList with
    | '\ufeff' :: rest => rest
    | chars => chars
  ((lines [] [] (chars.length + 1)).run chars).map Prod.fst

end SwiftBindings.Toml
