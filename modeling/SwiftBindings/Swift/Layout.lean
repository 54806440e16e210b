/-
**Layout of the generated code.**

The text of every piece of syntax. A file is laid out in a fixed order (header, imports, support,
tables, enumerations, structs, aliases), so equal files have equal texts. Text that comes from
outside reaches string literals escaped and comments as it is.
-/

import SwiftBindings.Swift.StringLiteral
import SwiftBindings.Swift.Syntax
import SwiftBindings.Swift.Support

namespace SwiftBindings.Swift

/-! ### Types and properties -/

/-- The text of a type. An optional type around one that admits absence adds nothing. -/
def SwiftType.text : SwiftType → String
  | .string => "String"
  | .bool => "Bool"
  | .double => "Double"
  | .named name => name
  | .id marker => "ConvexId<" ++ marker ++ ">"
  | .array element => "[" ++ element.text ++ "]"
  | .dictionary value => "[String: " ++ value.text ++ "]"
  | .optional wrapped => if wrapped.admitsAbsence then wrapped.text else wrapped.text ++ "?"
  | .jsonValue => "JSONValue"
  | .encodable => "ConvexEncodable?"

/-- The text of a wrapper. -/
def Wrapper.text : Wrapper → String
  | .convexFloat => "@ConvexFloat"
  | .optionalConvexFloat => "@OptionalConvexFloat"

/-- The declaration of a property. -/
def Property.text (property : Property) : String :=
  match property.wrapper with
  | some wrapper => wrapper.text ++ " var " ++ property.name ++ ": " ++ property.type.text
  | none => "let " ++ property.name ++ ": " ++ property.type.text

/-! ### Arguments -/

/-- The expression that turns a value into an argument. -/
def Encoding.text (value : String) : Encoding → String
  | .direct => value
  | .rawValue => value ++ ".rawValue"
  | .nested => value ++ ".toArgs()"
  | .array element => "encodeArray(" ++ value ++ ") \x7b " ++ element.text "$0" ++ " \x7d"
  | .record element => "encodeRecord(" ++ value ++ ") \x7b " ++ element.text "$0" ++ " \x7d"

@[simp] theorem Encoding.text_direct (value : String) : Encoding.direct.text value = value := rfl

@[simp] theorem Encoding.text_rawValue (value : String) :
    Encoding.rawValue.text value = value ++ ".rawValue" := rfl

@[simp] theorem Encoding.text_nested (value : String) :
    Encoding.nested.text value = value ++ ".toArgs()" := rfl

@[simp] theorem Encoding.text_array (value : String) (element : Encoding) :
    element.array.text value = "encodeArray(" ++ value ++ ") \x7b " ++ element.text "$0" ++ " \x7d" := rfl

@[simp] theorem Encoding.text_record (value : String) (element : Encoding) :
    element.record.text value = "encodeRecord(" ++ value ++ ") \x7b " ++ element.text "$0" ++ " \x7d" := rfl

/-- The statement that sets the argument of a property. The property is read through `self`, so its
name cannot clash with a local name. -/
def Argument.statement (property : Property) (argument : Argument) : String :=
  let key := quoted property.key
  let member := "self." ++ property.name
  let bound := "if let value = " ++ member ++ " \x7b args[" ++ key ++ "] = " ++
    argument.encoding.text "value" ++ " \x7d"
  match argument.presence with
  | .required => "args[" ++ key ++ "] = " ++ argument.encoding.text member
  | .optional => bound
  | .nullable => bound ++ " else \x7b args.updateValue(nil, forKey: " ++ key ++ ") \x7d"

/-- One step of indentation. -/
def indent : String := "    "

/-- The type of a call's arguments. -/
def argumentsType : String := "[String: ConvexEncodable?]"

/-- The lines of the function that collects the arguments of a struct. -/
def argumentLines (properties : List Property) : List String :=
  let statements := properties.filterMap fun property =>
    property.argument.map fun argument => argument.statement property
  let body :=
    if statements.isEmpty then [indent ++ indent ++ "[:]"]
    else [indent ++ indent ++ "var args: " ++ argumentsType ++ " = [:]"] ++
      statements.map (fun statement => indent ++ indent ++ statement) ++
      [indent ++ indent ++ "return args"]
  [indent ++ "func toArgs() -> " ++ argumentsType ++ " \x7b"] ++ body ++ [indent ++ "\x7d"]

/-! ### Declarations -/

/-- The line of a coding key. -/
def Property.codingKey (property : Property) : String :=
  let named := indent ++ indent ++ "case " ++ property.name
  if property.isRenamed then named ++ " = " ++ quoted property.key else named

/-- The lines of the coding keys, needed only where some property is renamed. -/
def codingKeyLines (properties : List Property) : List String :=
  if properties.any Property.isRenamed then
    ["", indent ++ "enum CodingKeys: String, CodingKey \x7b"] ++
      properties.map Property.codingKey ++ [indent ++ "\x7d"]
  else []

/-- The lines between the braces of a struct. -/
def Struct.body (declared : Struct) : List String :=
  let stored := declared.properties.map fun property => indent ++ property.text
  match declared.side with
  | .decode => stored ++ codingKeyLines declared.properties
  | .encode =>
    stored ++ (if stored.isEmpty then [] else [""]) ++ argumentLines declared.properties

/-- The text of a struct. -/
def Struct.text (declared : Struct) : String :=
  let opening := match declared.side with
    | .decode => "struct " ++ declared.name ++ ": Decodable"
    | .encode => "struct " ++ declared.name
  if declared.body.isEmpty then opening ++ " \x7b\x7d"
  else opening ++ " \x7b\n" ++ "\n".intercalate declared.body ++ "\n\x7d"

/-- The text of an enumeration. -/
def Enumeration.text (declared : Enumeration) : String :=
  let cases := declared.cases.map fun item =>
    indent ++ "case " ++ item.name ++ " = " ++ quoted item.rawValue
  "enum " ++ declared.name ++ ": String, Codable, CaseIterable \x7b\n" ++
    "\n".intercalate cases ++ "\n\x7d"

/-- The text of a marker. -/
def Marker.text (declared : Marker) : String :=
  "/// Marker for the \x60" ++ declared.table ++ "\x60 table.\nenum " ++ declared.name ++ " \x7b\x7d"

/-- The text of an alias. -/
def Alias.text (declared : Alias) : String :=
  "typealias " ++ declared.name ++ " = " ++ declared.target.text

/-! ### Files -/

/-- A titled section, left out when it is empty. -/
def titledSection (title : String) (items : List String) : List String :=
  if items.isEmpty then [] else ["// MARK: - " ++ title ++ "\n\n" ++ "\n\n".intercalate items]

/-- A line of the opening comment. -/
def headerLine (line : String) : String :=
  if line.isEmpty then "//" else "// " ++ line

/-- The blocks of a file, in order. -/
def File.blocks (file : File) : List String :=
  ["\n".intercalate (file.header.map headerLine),
    "import ConvexMobile\nimport Foundation",
    "// MARK: - Support\n\n" ++ Support.identifier ++ "\n\n" ++ Support.encoders] ++
  (if file.usesJsonValue then [Support.jsonValue] else []) ++
  titledSection "Tables" (file.markers.map Marker.text) ++
  titledSection "Enums" (file.enumerations.map Enumeration.text) ++
  titledSection "Structs" (file.structs.map Struct.text) ++
  titledSection "Return Types" (file.aliases.map Alias.text)

/-- The text of a file: its blocks with an empty line between them, and a line feed at the end. -/
def File.text (file : File) : String :=
  "\n\n".intercalate file.blocks ++ "\n"

end SwiftBindings.Swift
