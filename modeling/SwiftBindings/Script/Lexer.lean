/-
**Reading tokens.**

`nextToken` skips blanks and comments and reads one token from a text. It looks at nothing but the
text that follows, so a reader can ask for the next token at any place; the places where a slash
opens a regular expression and where a brace continues a template are known to the grammar, which
reads those with `regexEnd?` and `templateEnd`.
-/

import SwiftBindings.Script.Literal
import SwiftBindings.Script.Token
import SwiftBindings.Text.Cut
import SwiftBindings.Text.Identifier
import SwiftBindings.Text.Position

namespace SwiftBindings.Script

open Text

/-! ### Blanks and comments -/

/-- A blank between tokens that does not end a line. -/
def isSpace (c : Char) : Bool :=
  let code := c.toNat
  code == 9 || code == 11 || code == 12 || code == 0x20 || code == 0xA0 || code == 0xFEFF ||
    code == 0x1680 || (0x2000 ≤ code && code ≤ 0x200A) || code == 0x202F || code == 0x205F ||
    code == 0x3000

/-- What a reader of blanks is inside of. -/
inductive Skipping where
  /-- Neither kind of comment. -/
  | open
  /-- A comment that ends with the line. -/
  | line
  /-- A comment that ends with a mark of its own. -/
  | block

/-- Skips blanks and comments. Answers what follows, its offset, and whether a line ended on the
way. A comment without its closing mark takes up the whole text. The marks around comments of markup
open comments that end with the line, the closing one only where a line starts. -/
def skipGap : Skipping → List Char → Nat → Bool → List Char × Nat × Bool
  | _, [], offset, lineBreak => ([], offset, lineBreak)
  | .open, '/' :: '/' :: rest, offset, lineBreak => skipGap .line rest (offset + 2) lineBreak
  | .open, '/' :: '*' :: rest, offset, lineBreak => skipGap .block rest (offset + 2) lineBreak
  | .block, '*' :: '/' :: rest, offset, lineBreak => skipGap .open rest (offset + 2) lineBreak
  | .open, '<' :: '!' :: '-' :: '-' :: rest, offset, lineBreak =>
    skipGap .line rest (offset + 4) lineBreak
  | .open, '-' :: '-' :: '>' :: rest, offset, true => skipGap .line rest (offset + 3) true
  | .open, c :: rest, offset, lineBreak =>
    if isLineEnd c then skipGap .open rest (offset + c.utf8Size) true
    else if isSpace c then skipGap .open rest (offset + c.utf8Size) lineBreak
    else (c :: rest, offset, lineBreak)
  | .line, c :: rest, offset, lineBreak =>
    if isLineEnd c then skipGap .open rest (offset + c.utf8Size) true
    else skipGap .line rest (offset + c.utf8Size) lineBreak
  | .block, c :: rest, offset, lineBreak =>
    skipGap .block rest (offset + c.utf8Size) (lineBreak || isLineEnd c)

/-! ### Words and numbers -/

/-- A run of identifier characters and escapes: the characters they stand for, the text read, and
the text after it. -/
def readName : List Char → List Char × List Char × List Char
  | [] => ([], [], [])
  | '\\' :: 'u' :: a :: b :: c :: d :: rest =>
    match hexValue? [a, b, c, d] with
    | some code =>
      let (name, read, after) := readName rest
      (Char.ofNat code :: name, '\\' :: 'u' :: a :: b :: c :: d :: read, after)
    | none => ([], [], '\\' :: 'u' :: a :: b :: c :: d :: rest)
  | c :: rest =>
    if isIdentifierPart c then
      let (name, read, after) := readName rest
      (c :: name, c :: read, after)
    else ([], [], c :: rest)

/-- A digit or the mark that groups digits. -/
def isDigitOrGroup (c : Char) : Bool := c.isDigit || c == '_'

/-- The exponent that a number may end with. -/
def exponentLength (chars : List Char) : Nat :=
  match chars with
  | e :: rest =>
    if e = 'e' ∨ e = 'E' then
      let (sign, digits) := match rest with
        | '+' :: digits => (1, digits)
        | '-' :: digits => (1, digits)
        | digits => (0, digits)
      let count := (digits.takeWhile isDigitOrGroup).length
      if count = 0 then 0 else 1 + sign + count
    else 0
  | [] => 0

/-- The number of characters of a decimal number. -/
def decimalLength (chars : List Char) : Nat :=
  let whole := (chars.takeWhile isDigitOrGroup).length
  let fraction := match chars.drop whole with
    | '.' :: rest => 1 + (rest.takeWhile isDigitOrGroup).length
    | _ => 0
  whole + fraction + exponentLength (chars.drop (whole + fraction))

/-- The number of characters of a number. -/
def numberLength (chars : List Char) : Nat :=
  match chars with
  | '0' :: base :: rest =>
    if base ∈ ['x', 'X', 'o', 'O', 'b', 'B'] then
      2 + (rest.takeWhile fun c => (hexDigit? c).isSome || c == '_').length
    else decimalLength chars
  | _ => decimalLength chars

/-! ### Tokens -/

/-- A token kind with the text read and the text after it. -/
abbrev Reading := TokenKind × List Char × List Char

/-- Reads a number. A number that runs into an identifier is no token. -/
def readNumber (chars : List Char) : Reading :=
  let length := numberLength chars
  let read := chars.take length
  match chars.drop length with
  | 'n' :: rest => (.bigint, read ++ ['n'], rest)
  | c :: rest =>
    if isIdentifierStart c then (.invalid, read, c :: rest) else (.number, read, c :: rest)
  | [] => (.number, read, [])

/-- Reads a string literal behind its opening quote. -/
def readString (quote : Char) (chars : List Char) : Reading :=
  match literalBody? quote chars with
  | none => (.invalid, [quote], chars)
  | some (body, rest) => match literalValue? body with
    | none => (.invalid, [quote], chars)
    | some value => (.string value, quote :: body ++ [quote], rest)

/-- Reads punctuation or an operator. A question mark and a point before a digit do not belong
together. -/
def readMark (chars : List Char) : Reading :=
  let fits (mark : String) : Bool := match afterMark? mark.toList chars with
    | none => false
    | some rest => mark != "?." || !(rest.head?.any Char.isDigit)
  match marks.find? fits with
  | some mark => (.mark mark, mark.toList, chars.drop mark.toList.length)
  | none => (.invalid, chars.take 1, chars.drop 1)

/-- Reads the token that a text starts with. -/
def readToken (chars : List Char) : Reading :=
  match chars with
  | [] => (.finish, [], [])
  | '"' :: rest => readString '"' rest
  | '\'' :: rest => readString '\'' rest
  | '\x60' :: rest => (.backquote, ['\x60'], rest)
  | '#' :: rest => match readName rest with
    | ([], _, _) => (.invalid, ['#'], rest)
    | (_, read, after) => (.privateName, '#' :: read, after)
  | '.' :: c :: rest => if c.isDigit then readNumber chars else readMark ('.' :: c :: rest)
  | c :: _ =>
    if c.isDigit then readNumber chars
    else if isIdentifierStart c || c == '\\' then
      match readName chars with
      | ([], _, _) => (.invalid, [c], chars.drop 1)
      | (name, read, after) => (.word (String.ofList name), read, after)
    else readMark chars

/-- Skips blanks and comments and reads a token. -/
def nextToken (chars : List Char) (offset : Nat) : Token :=
  let (rest, start, lineBreak) := skipGap .open chars offset false
  let (kind, read, after) := readToken rest
  { kind, start, stop := start + byteLength read, lineBreak, rest := after }

/-! ### Regular expressions and templates -/

/-- The body of a regular expression, up to and with its closing slash, and the text after it. The
flag tells whether a character class is open. -/
def regexEnd? : Bool → List Char → Option (List Char × List Char)
  | _, [] => none
  | inClass, '\\' :: c :: rest =>
    if isLineEnd c then none
    else (regexEnd? inClass rest).map fun cut => ('\\' :: c :: cut.1, cut.2)
  | inClass, c :: rest =>
    if isLineEnd c then none
    else if c = '/' ∧ inClass = false then some (['/'], rest)
    else (regexEnd? (if c = '[' then true else if c = ']' then false else inClass) rest).map
      fun cut => (c :: cut.1, cut.2)

/-- How a piece of template text ends. -/
inductive TemplateEnd where
  /-- With the quote that closes the template. -/
  | closed
  /-- With the mark that opens a substitution. -/
  | substitution
  deriving DecidableEq, Repr

/-- The text of a template up to its closing quote or its next substitution, with the mark that ends
it, and the text after it. -/
def templateEnd? : List Char → Option (TemplateEnd × List Char × List Char)
  | [] => none
  | '\\' :: c :: rest =>
    (templateEnd? rest).map fun cut => (cut.1, '\\' :: c :: cut.2.1, cut.2.2)
  | '$' :: '\x7b' :: rest => some (.substitution, ['$', '\x7b'], rest)
  | c :: rest =>
    if c = '\x60' then some (.closed, ['\x60'], rest)
    else (templateEnd? rest).map fun cut => (cut.1, c :: cut.2.1, cut.2.2)

end SwiftBindings.Script
