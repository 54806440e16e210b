/-
**Declared types.**

The types and values a declaration file declares, as written. Only shapes that resolution can follow
have a structure; any other type is `opaque` and keeps its source text.
-/

namespace SwiftBindings.Declared

/-- The types that have a word of their own. -/
inductive Keyword where
  | string
  | number
  | boolean
  | bigint
  | symbol
  | object
  | null
  | undefined
  | void
  | any
  | unknown
  | never
  deriving DecidableEq, Repr

/-- The word for the type. -/
def Keyword.text : Keyword → String
  | .string => "string"
  | .number => "number"
  | .boolean => "boolean"
  | .bigint => "bigint"
  | .symbol => "symbol"
  | .object => "object"
  | .null => "null"
  | .undefined => "undefined"
  | .void => "void"
  | .any => "any"
  | .unknown => "unknown"
  | .never => "never"

/-- All keywords. -/
def Keyword.all : List Keyword :=
  [.string, .number, .boolean, .bigint, .symbol, .object, .null, .undefined, .void, .any, .unknown,
    .never]

/-- The keyword with the given text. -/
def Keyword.ofText? (text : String) : Option Keyword :=
  Keyword.all.find? fun keyword => keyword.text == text

mutual

/-- A type as written. -/
inductive TypeExpr where
  /-- A keyword. -/
  | keyword (keyword : Keyword)
  /-- A string literal, by its value. -/
  | stringLiteral (value : String)
  /-- A number literal, by its source text with its sign. -/
  | numberLiteral (text : String)
  /-- A truth value. -/
  | booleanLiteral (value : Bool)
  /-- A dotted name with type arguments, none when none are written. -/
  | reference (name : String) (arguments : List TypeExpr)
  /-- A list type. -/
  | array (element : TypeExpr)
  /-- A list type with one type for each place. -/
  | tuple (elements : List TypeExpr)
  /-- Alternatives. -/
  | union (members : List TypeExpr)
  /-- Parts that all hold. -/
  | intersection (members : List TypeExpr)
  /-- An object type. -/
  | object (members : List Member)
  /-- The type of a value, by its dotted name. -/
  | query (name : String)
  /-- Any other type, by its source text. -/
  | opaqueText (text : String)

/-- A member of an object type. -/
inductive Member where
  /-- A property with its key. A method is a property of opaque type. -/
  | property (name : String) (optional : Bool) (type : TypeExpr)
  /-- The type of all further properties. -/
  | index (key value : TypeExpr)

end

/-! ### Equality -/

mutual

/-- The types are the same. -/
def TypeExpr.same : TypeExpr → TypeExpr → Bool
  | .keyword keyword, .keyword twin => keyword == twin
  | .stringLiteral value, .stringLiteral twin => value == twin
  | .numberLiteral text, .numberLiteral twin => text == twin
  | .booleanLiteral value, .booleanLiteral twin => value == twin
  | .reference name arguments, .reference twin twins => name == twin && sameTypes arguments twins
  | .array element, .array twin => element.same twin
  | .tuple elements, .tuple twins => sameTypes elements twins
  | .union members, .union twins => sameTypes members twins
  | .intersection members, .intersection twins => sameTypes members twins
  | .object members, .object twins => sameMembers members twins
  | .query name, .query twin => name == twin
  | .opaqueText text, .opaqueText twin => text == twin
  | _, _ => false

/-- The types are the same, in order. -/
def sameTypes : List TypeExpr → List TypeExpr → Bool
  | [], [] => true
  | type :: rest, twin :: twins => type.same twin && sameTypes rest twins
  | _, _ => false

/-- The members are the same. -/
def Member.same : Member → Member → Bool
  | .property name optional type, .property named leave twin =>
    name == named && optional == leave && type.same twin
  | .index key value, .index named twin => key.same named && value.same twin
  | _, _ => false

/-- The members are the same, in order. -/
def sameMembers : List Member → List Member → Bool
  | [], [] => true
  | member :: rest, twin :: twins => member.same twin && sameMembers rest twins
  | _, _ => false

end

mutual

theorem TypeExpr.same_iff : ∀ type twin : TypeExpr, type.same twin = true ↔ type = twin
  | .keyword _, twin | .stringLiteral _, twin | .numberLiteral _, twin | .booleanLiteral _, twin
  | .query _, twin | .opaqueText _, twin => by cases twin <;> simp [TypeExpr.same]
  | .reference _ types, twin | .tuple types, twin | .union types, twin | .intersection types, twin => by
    cases twin <;> simp [TypeExpr.same, sameTypes_iff types]
  | .array element, twin => by cases twin <;> simp [TypeExpr.same, element.same_iff]
  | .object members, twin => by cases twin <;> simp [TypeExpr.same, sameMembers_iff members]

theorem sameTypes_iff : ∀ types twins : List TypeExpr, sameTypes types twins = true ↔ types = twins
  | [], twins => by cases twins <;> simp [sameTypes]
  | type :: rest, twins => by cases twins <;> simp [sameTypes, type.same_iff, sameTypes_iff rest]

theorem Member.same_iff : ∀ member twin : Member, member.same twin = true ↔ member = twin
  | .property _ _ type, twin => by cases twin <;> simp [Member.same, type.same_iff, and_assoc]
  | .index key value, twin => by cases twin <;> simp [Member.same, key.same_iff, value.same_iff]

theorem sameMembers_iff : ∀ members twins : List Member,
    sameMembers members twins = true ↔ members = twins
  | [], twins => by cases twins <;> simp [sameMembers]
  | member :: rest, twins => by
    cases twins <;> simp [sameMembers, member.same_iff, sameMembers_iff rest]

end

instance : DecidableEq TypeExpr := fun type twin =>
  decidable_of_decidable_of_iff (type.same_iff twin)

instance : DecidableEq Member := fun member twin =>
  decidable_of_decidable_of_iff (member.same_iff twin)

/-! ### Declarations -/

/-- A type parameter with its default. -/
structure Parameter where
  /-- Name of the parameter. -/
  name : String
  /-- Type that stands in where no argument is written. -/
  fallback : Option TypeExpr
  deriving DecidableEq

/-- A declaration at the top level of a file. -/
inductive Item where
  /-- A name for a type. -/
  | typeAlias (name : String) (parameters : List Parameter) (type : TypeExpr) (exported : Bool)
  /-- An interface: an object type with bases. -/
  | interface (name : String) (parameters : List Parameter) (bases : List TypeExpr)
      (members : List Member) (exported : Bool)
  /-- A value of a type. -/
  | value (name : String) (type : TypeExpr) (exported : Bool)
  /-- Local names with the names they are exported under. -/
  | exports (names : List (String × String))
  deriving DecidableEq

end SwiftBindings.Declared
