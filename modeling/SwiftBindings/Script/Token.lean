/-
**Tokens of the scripting language.**

A token is the longest piece of text that has a meaning of its own. The closing angle bracket is
always a token of one character, because in types it closes one list at a time; operators that start
with it are put together where expressions are read.
-/

namespace SwiftBindings.Script

/-- What a token is. -/
inductive TokenKind where
  /-- An identifier or a reserved word. -/
  | word (name : String)
  /-- A name behind a hash sign. -/
  | privateName
  /-- A string literal, by its value. -/
  | string (value : String)
  /-- A number literal. -/
  | number
  /-- An integer literal of any size. -/
  | bigint
  /-- Punctuation or an operator. -/
  | mark (text : String)
  /-- The quote that opens a template. -/
  | backquote
  /-- The end of the text. -/
  | finish
  /-- Text that is no token. -/
  | invalid
  deriving DecidableEq, Repr

/-- A token in its place. -/
structure Token where
  /-- What the token is. -/
  kind : TokenKind
  /-- Offset of its first byte. -/
  start : Nat
  /-- Offset after its last byte. -/
  stop : Nat
  /-- A line break stands between the token and the one before. -/
  lineBreak : Bool
  /-- The text after the token. -/
  rest : List Char

/-- Words that cannot name a variable. -/
def reservedWords : List String :=
  ["break", "case", "catch", "class", "const", "continue", "debugger", "default", "delete", "do",
    "else", "enum", "export", "extends", "false", "finally", "for", "function", "if", "import", "in",
    "instanceof", "new", "null", "return", "super", "switch", "this", "throw", "true", "try",
    "typeof", "var", "void", "while", "with"]

/-- Punctuation and operators; of two that fit, the longer comes first. -/
def marks : List String :=
  ["...", "===", "!==", "**=", "<<=", "&&=", "||=", "??=", "=>", "==", "!=", "++", "--", "**", "&&",
    "||", "??", "?.", "<<", "<=", "+=", "-=", "*=", "/=", "%=", "&=", "|=", "^=", "\x7b", "\x7d", "(",
    ")", "[", "]", ";", ",", "<", ">", "+", "-", "*", "/", "%", "&", "|", "^", "!", "~", "?", ":", "=",
    "@", "."]

end SwiftBindings.Script
