/-
**JSON values and their text.**

The values that the program writes, and their one text: two spaces of indentation for each level,
one member on a line, empty lists and objects without a break, and members in the given order.
-/

namespace SwiftBindings.Json

/-- A JSON value. -/
inductive Value where
  /-- A truth value. -/
  | bool (value : Bool)
  /-- A natural number. -/
  | number (value : Nat)
  /-- A string. -/
  | string (value : String)
  /-- A list. -/
  | array (items : List Value)
  /-- An object with its members in order. -/
  | object (members : List (String × Value))

/-! ### Strings -/

/-- A code unit below 256 as an escape of four digits. -/
def unicodeEscape (c : Char) : List Char :=
  ['\\', 'u', '0', '0', Nat.digitChar (c.toNat / 16), Nat.digitChar (c.toNat % 16)]

/-- How one character is written inside a string. -/
def escapeChar (c : Char) : List Char :=
  match c with
  | '"' => ['\\', '"']
  | '\\' => ['\\', '\\']
  | '\n' => ['\\', 'n']
  | '\r' => ['\\', 'r']
  | '\t' => ['\\', 't']
  | '\x08' => ['\\', 'b']
  | '\x0c' => ['\\', 'f']
  | c => if c.toNat < 0x20 then unicodeEscape c else [c]

/-- A string with its quotes. -/
def quotedString (text : String) : String :=
  "\"" ++ String.ofList (text.toList.flatMap escapeChar) ++ "\""

/-! ### Values -/

/-- A line break and the indentation of a level. -/
def lineBreak (level : Nat) : String :=
  "\n" ++ String.ofList (List.replicate (2 * level) ' ')

/-- Items between brackets, one on a line. -/
def bracketed (opening closing : String) (level : Nat) (items : List String) : String :=
  if items.isEmpty then opening ++ closing
  else opening ++ lineBreak (level + 1) ++ ("," ++ lineBreak (level + 1)).intercalate items ++
    lineBreak level ++ closing

mutual

/-- The text of a value that starts at a level of indentation. -/
def Value.textAt (level : Nat) : Value → String
  | .bool value => if value then "true" else "false"
  | .number value => toString value
  | .string value => quotedString value
  | .array items => bracketed "[" "]" level (Value.itemTexts (level + 1) items)
  | .object members => bracketed "\x7b" "\x7d" level (Value.memberTexts (level + 1) members)

/-- The texts of the items of a list. -/
def Value.itemTexts (level : Nat) : List Value → List String
  | [] => []
  | item :: rest => item.textAt level :: Value.itemTexts level rest

/-- The texts of the members of an object. -/
def Value.memberTexts (level : Nat) : List (String × Value) → List String
  | [] => []
  | (key, value) :: rest =>
    (quotedString key ++ ": " ++ value.textAt level) :: Value.memberTexts level rest

end

/-- The text of a value as a whole file: a line feed ends it. -/
def Value.fileText (value : Value) : String :=
  value.textAt 0 ++ "\n"

end SwiftBindings.Json
