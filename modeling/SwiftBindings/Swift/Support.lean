/-
**Support code of every generated file.**

The fixed declarations that the generated types refer to.
-/

namespace SwiftBindings.Swift.Support

/-- The identifier type of table rows. -/
def identifier : String :=
  "\n".intercalate [
    "/// Identifier of a row in the table named by \x60Table\x60.",
    "struct ConvexId<Table>: Codable, Hashable, CustomStringConvertible \x7b",
    "    let rawValue: String",
    "",
    "    init(_ rawValue: String) \x7b",
    "        self.rawValue = rawValue",
    "    \x7d",
    "",
    "    init(from decoder: Decoder) throws \x7b",
    "        rawValue = try decoder.singleValueContainer().decode(String.self)",
    "    \x7d",
    "",
    "    func encode(to encoder: Encoder) throws \x7b",
    "        var container = encoder.singleValueContainer()",
    "        try container.encode(rawValue)",
    "    \x7d",
    "",
    "    var description: String \x7b rawValue \x7d",
    "\x7d"]

/-- The functions that encode lists and mappings. -/
def encoders : String :=
  "\n".intercalate [
    "func encodeArray<T>(_ values: [T], _ transform: (T) -> ConvexEncodable?) -> [ConvexEncodable?] \x7b",
    "    values.map(transform)",
    "\x7d",
    "",
    "func encodeRecord<T>(_ values: [String: T], _ transform: (T) -> ConvexEncodable?) -> [String: ConvexEncodable?] \x7b",
    "    values.mapValues(transform)",
    "\x7d"]

/-- The value of unknown shape, with its decoder. -/
def jsonValue : String :=
  "\n".intercalate [
    "/// Value whose shape is not known statically.",
    "enum JSONValue: Decodable, Hashable \x7b",
    "    case null",
    "    case bool(Bool)",
    "    case number(Double)",
    "    case string(String)",
    "    case array([JSONValue])",
    "    case object([String: JSONValue])",
    "",
    "    init(from decoder: Decoder) throws \x7b",
    "        let container = try decoder.singleValueContainer()",
    "        if container.decodeNil() \x7b",
    "            self = .null",
    "        \x7d else if let value = try? container.decode(Bool.self) \x7b",
    "            self = .bool(value)",
    "        \x7d else if let value = try? container.decode(Double.self) \x7b",
    "            self = .number(value)",
    "        \x7d else if let value = try? container.decode(String.self) \x7b",
    "            self = .string(value)",
    "        \x7d else if let value = try? container.decode([JSONValue].self) \x7b",
    "            self = .array(value)",
    "        \x7d else \x7b",
    "            self = .object(try container.decode([String: JSONValue].self))",
    "        \x7d",
    "    \x7d",
    "\x7d"]

end SwiftBindings.Swift.Support
