/-
**Identifiers of the generated code.**

Names in the generated code derive from arbitrary text. A text is split into words at every
character that is not an ASCII letter or digit; type names join capitalised words (`pascalCase`),
members start with a small letter (`camelCase`), reserved words are put in backticks, and a name
already taken gets the first free number (`freshName`).
-/

import SwiftBindings.Text.Blank
import SwiftBindings.Text.Uppercase

namespace SwiftBindings.Swift

open SwiftBindings.Text

/-! ### Reserved words -/

/-- Words that cannot be identifiers without backticks. Words reserved in some contexts only are
plain identifiers. -/
def reservedWords : List String :=
  ["associatedtype", "class", "deinit", "enum", "extension", "fileprivate", "func", "import", "init",
    "inout", "internal", "let", "operator", "private", "precedencegroup", "protocol", "public",
    "rethrows", "static", "struct", "subscript", "typealias", "var", "break", "case", "catch",
    "continue", "default", "defer", "do", "else", "fallthrough", "for", "guard", "if", "in", "repeat",
    "return", "throw", "switch", "where", "while", "Any", "as", "await", "false", "is", "nil", "self",
    "Self", "super", "throws", "true", "try", "Type"]

/-- The name, in backticks when it is reserved. -/
def escapeReserved (name : String) : String :=
  if name ∈ reservedWords then "\x60" ++ name ++ "\x60" else name

/-- The name without backticks at either end. -/
def withoutBackticks (name : String) : String :=
  String.ofList (trimWhile (· == '\x60') name.toList)

/-! ### Plain identifiers and words -/

/-- An ASCII letter or an underscore, then ASCII letters, digits and underscores. -/
def isPlainIdentifier (name : String) : Bool :=
  match name.toList with
  | [] => false
  | first :: rest =>
    (first.isAlpha || first == '_') && rest.all fun c => c.isAlphanum || c == '_'

/-- The maximal runs of ASCII letters and digits, in order. -/
def words (chars : List Char) : List (List Char) :=
  (chars.splitOnP fun c => !c.isAlphanum).filter fun word => !word.isEmpty

/-- The capital form of the first character, then the rest. -/
def capitalizeChars : List Char → List Char
  | [] => []
  | first :: rest => uppercase first ++ rest

/-- The text with a capital first character. -/
def capitalize (text : String) : String :=
  String.ofList (capitalizeChars text.toList)

/-- The small form of an ASCII first character, then the rest. -/
def decapitalizeChars : List Char → List Char
  | [] => []
  | first :: rest => first.toLower :: rest

/-! ### Case -/

/-- The capitalised words, joined. -/
def pascalCase (text : String) : String :=
  String.ofList ((words text.toList).flatMap capitalizeChars)

/-- An underscore in front of a name that starts with a digit. -/
def guardDigit (chars : List Char) : List Char :=
  match chars with
  | first :: _ => if first.isDigit then '_' :: chars else chars
  | [] => []

/-- The type name of a path of segments; a path without a single word is called `Value`. -/
def typeName (path : List String) : String :=
  let name := pascalCase ("_".intercalate path)
  if name.isEmpty then "Value" else String.ofList (guardDigit name.toList)

/-- The member name of a text: the first word starts small and the others with a capital. Where the
text has no small letter, all words are small to begin with; a text without a word is called
`value`. -/
def camelCase (text : String) : String :=
  let chars := text.toList
  let shouting := !chars.any Char.isLower
  let parts := (words chars).map fun word => if shouting then word.map Char.toLower else word
  match parts with
  | [] => "value"
  | first :: rest =>
    String.ofList (guardDigit (decapitalizeChars first ++ rest.flatMap capitalizeChars))

/-- The name of an enumeration case for a literal. -/
def caseName (literal : String) : String :=
  escapeReserved (camelCase literal)

/-- The property name for a key on the wire. -/
def propertyName (key : String) : String :=
  escapeReserved (if isPlainIdentifier key then key else camelCase key)

/-- The property name of the key leaves the key behind. -/
def renamesProperty (key : String) : Bool :=
  !isPlainIdentifier key

/-! ### Fresh names -/

/-- The name with a number behind it; a closing backtick stays at the end. -/
def numbered (base : String) (number : Nat) : String :=
  let chars := base.toList
  if chars.getLast? = some '\x60' then
    String.ofList chars.dropLast ++ toString number ++ "\x60"
  else base ++ toString number

/-- The base itself when it is free, else the base with the first number from two on that is. -/
def freshName (base : String) (taken : List String) : String :=
  if base ∈ taken then
    let candidates := (List.range (taken.length + 1)).map fun index => numbered base (index + 2)
    (candidates.find? fun candidate => candidate ∉ taken).getD base
  else base

end SwiftBindings.Swift
