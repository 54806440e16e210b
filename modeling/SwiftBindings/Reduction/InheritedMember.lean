/-
**Members that every value inherits.**

Objects, strings and numbers inherit members from their prototypes, and any object may have members
whose key is a well-known symbol. None of these is a field of a declared shape.
-/

import SwiftBindings.Text.Alphanumeric
import SwiftBindings.Text.Cut

namespace SwiftBindings.Reduction

open Text

/-- Members of the prototypes of objects, strings and numbers. -/
def prototypeMembers : List String :=
  ["constructor", "hasOwnProperty", "isPrototypeOf", "propertyIsEnumerable", "toLocaleString",
    "toString", "valueOf",
    "length", "anchor", "at", "charAt", "charCodeAt", "codePointAt", "concat", "endsWith", "includes",
    "indexOf", "lastIndexOf", "localeCompare", "match", "matchAll", "normalize", "padEnd", "padStart",
    "repeat", "replace", "replaceAll", "search", "slice", "split", "startsWith", "substr",
    "substring", "toLocaleLowerCase", "toLocaleUpperCase", "toLowerCase", "toUpperCase", "trim",
    "trimEnd", "trimStart",
    "toExponential", "toFixed", "toPrecision"]

/-- At least one character, and all of them letters, numbers or underscores. -/
def isWord (chars : List Char) : Bool :=
  !chars.isEmpty && chars.all fun c => isAlphanumeric c || c == '_'

/-- The mark in front of the name of a well-known symbol. -/
def symbolMark : List Char := ['_', '_', '@']

/-- A marked word, which may be followed by an at sign and a decimal number. -/
def isWellKnownSymbol (name : String) : Bool :=
  match afterMark? symbolMark name.toList with
  | none => false
  | some rest => match cutAt? '@' rest with
    | none => isWord rest
    | some (symbol, number) => isWord symbol && !number.isEmpty && number.all Char.isDigit

/-- The member comes from a prototype or is keyed by a well-known symbol. -/
def isInherited (name : String) : Bool :=
  name ∈ prototypeMembers || isWellKnownSymbol name

end SwiftBindings.Reduction
