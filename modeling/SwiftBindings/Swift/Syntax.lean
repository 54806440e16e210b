/-
**Syntax of the generated code.**

Type expressions, stored properties, and the four kinds of declaration that a generated file holds:
structs, string enumerations, table markers and type aliases.
-/

import SwiftBindings.Swift.Identifier

namespace SwiftBindings.Swift

/-! ### Types -/

/-- The direction in which values of a type travel. -/
inductive Side where
  /-- Read from answers of the server. -/
  | decode
  /-- Written into arguments of a call. -/
  | encode
  deriving DecidableEq, Repr

/-- A type expression. -/
inductive SwiftType where
  /-- A string. -/
  | string
  /-- A truth value. -/
  | bool
  /-- A number. -/
  | double
  /-- A struct or enumeration of the same file. -/
  | named (name : String)
  /-- The identifier of a row in the table with this marker. -/
  | id (marker : String)
  /-- A list. -/
  | array (element : SwiftType)
  /-- A mapping from strings. -/
  | dictionary (value : SwiftType)
  /-- A value that may be absent. -/
  | optional (wrapped : SwiftType)
  /-- A value of unknown shape that is read. -/
  | jsonValue
  /-- A value of unknown shape that is written; it may be absent as it is. -/
  | encodable
  deriving DecidableEq, Repr

/-- The type may stand for an absent value. -/
def SwiftType.admitsAbsence : SwiftType → Bool
  | .optional _ | .encodable => true
  | _ => false

/-- The type that also admits an absent value; one that does already is left as it is. -/
def SwiftType.orAbsent (type : SwiftType) : SwiftType :=
  if type.admitsAbsence then type else .optional type

/-! ### Properties -/

/-- A property wrapper for numbers that are read. -/
inductive Wrapper where
  /-- For a number that is always present. -/
  | convexFloat
  /-- For a number that may be absent. -/
  | optionalConvexFloat
  deriving DecidableEq, Repr

/-- How a value becomes an argument of a call. -/
inductive Encoding where
  /-- As it is. -/
  | direct
  /-- By the raw value of an identifier or an enumeration. -/
  | rawValue
  /-- By the arguments of a nested struct. -/
  | nested
  /-- Element by element. -/
  | array (element : Encoding)
  /-- Value by value. -/
  | record (value : Encoding)
  deriving DecidableEq, Repr

/-- When an argument is set. -/
inductive Presence where
  /-- Always. -/
  | required
  /-- Only where there is a value. -/
  | optional
  /-- Always, with an explicit null where there is no value. -/
  | nullable
  deriving DecidableEq, Repr

/-- How a property is written into the arguments of a call. -/
structure Argument where
  /-- How the value becomes an argument. -/
  encoding : Encoding
  /-- When the argument is set. -/
  presence : Presence
  deriving DecidableEq, Repr

/-- A stored property. -/
structure Property where
  /-- Name in the code, in backticks where it is reserved. -/
  name : String
  /-- Key on the wire. -/
  key : String
  /-- Declared type. -/
  type : SwiftType
  /-- Wrapper of a number that is read. -/
  wrapper : Option Wrapper
  /-- Present for properties that are written. -/
  argument : Option Argument
  deriving DecidableEq, Repr

/-- The name in the code is not the key on the wire. -/
def Property.isRenamed (property : Property) : Bool :=
  withoutBackticks property.name != property.key

/-! ### Declarations -/

/-- A struct. -/
structure Struct where
  /-- Type name. -/
  name : String
  /-- Whether it is read or written. -/
  side : Side
  /-- Stored properties in declaration order. -/
  properties : List Property
  deriving DecidableEq, Repr

/-- One case of a string enumeration. -/
structure Case where
  /-- Name in the code. -/
  name : String
  /-- Text on the wire. -/
  rawValue : String
  deriving DecidableEq, Repr

/-- A string enumeration. -/
structure Enumeration where
  /-- Type name. -/
  name : String
  /-- Cases in declaration order. -/
  cases : List Case
  deriving DecidableEq, Repr

/-- A type without values that names a table. -/
structure Marker where
  /-- Type name. -/
  name : String
  /-- The table. -/
  table : String
  deriving DecidableEq, Repr

/-- Another name for a type. -/
structure Alias where
  /-- The name. -/
  name : String
  /-- The type. -/
  target : SwiftType
  deriving DecidableEq, Repr

/-- A declaration that other declarations refer to by name. -/
inductive Declaration where
  /-- A struct. -/
  | struct (declared : Struct)
  /-- A string enumeration. -/
  | enumeration (declared : Enumeration)
  /-- A table marker. -/
  | marker (declared : Marker)
  deriving DecidableEq, Repr

/-- The declared name. -/
def Declaration.name : Declaration → String
  | .struct declared => declared.name
  | .enumeration declared => declared.name
  | .marker declared => declared.name

/-- The same declaration under another name. -/
def Declaration.rename (name : String) : Declaration → Declaration
  | .struct declared => .struct { declared with name }
  | .enumeration declared => .enumeration { declared with name }
  | .marker declared => .marker { declared with name }

/-- Everything one generated file holds, in the order of the text. -/
structure File where
  /-- Lines of the opening comment. -/
  header : List String
  /-- Some type of the file is the value of unknown shape that is read. -/
  usesJsonValue : Bool
  /-- Table markers. -/
  markers : List Marker
  /-- String enumerations. -/
  enumerations : List Enumeration
  /-- Structs. -/
  structs : List Struct
  /-- Type aliases. -/
  aliases : List Alias
  deriving DecidableEq, Repr

/-! ### Small laws -/

@[simp] theorem Declaration.name_rename (name : String) (declaration : Declaration) :
    (declaration.rename name).name = name := by
  cases declaration <;> rfl

@[simp] theorem Declaration.rename_name (declaration : Declaration) :
    declaration.rename declaration.name = declaration := by
  cases declaration <;> rfl

/-- Admitting absence twice is admitting it once. -/
@[simp] theorem SwiftType.orAbsent_orAbsent (type : SwiftType) :
    type.orAbsent.orAbsent = type.orAbsent := by
  cases type <;> rfl

end SwiftBindings.Swift
