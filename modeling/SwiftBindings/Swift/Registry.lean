/-
**Rendering validators with a registry of declarations.**

Named declarations are collected in a registry. A declaration takes the name of its path; where that
name already stands for another declaration it takes the first number that is free or that stands
for an equal declaration, so equal declarations with equal paths share one name
(`Registry.register`). Rendering a validator registers what its type refers to and answers the type
(`Registry.render`).
-/

import SwiftBindings.Swift.Syntax
import SwiftBindings.Validator.Basic

namespace SwiftBindings.Swift

/-! ### The registry -/

/-- The declarations of a run, in order of registration. -/
structure Registry where
  /-- Registered declarations; no two have one name. -/
  declarations : List Declaration
  /-- Some rendered type is the value of unknown shape that is read. -/
  usesJsonValue : Bool
  deriving DecidableEq, Repr

/-- The registry of a new run. -/
def Registry.empty : Registry := ⟨[], false⟩

/-- The declaration registered under a name. -/
def Registry.find? (registry : Registry) (name : String) : Option Declaration :=
  registry.declarations.find? fun declaration => declaration.name == name

/-- The declaration's name is free or stands for the same declaration. -/
def Registry.admits (registry : Registry) (declaration : Declaration) : Bool :=
  match registry.find? declaration.name with
  | none => true
  | some existing => existing == declaration

/-- The registry with the declaration in it. -/
def Registry.insert (registry : Registry) (declaration : Declaration) : Registry :=
  match registry.find? declaration.name with
  | none => { registry with declarations := registry.declarations ++ [declaration] }
  | some _ => registry

/-- The names to try: the base, then the base with two, three and so on behind it. -/
def candidateName (base : String) (attempt : Nat) : String :=
  if attempt = 0 then base else base ++ toString (attempt + 1)

/-- Registers a declaration under the first name that admits it, and answers that name. Among one
more name than there are declarations some name is free. -/
def Registry.register (registry : Registry) (declaration : Declaration) : String × Registry :=
  let attempts := (List.range (registry.declarations.length + 1)).map fun attempt =>
    declaration.rename (candidateName declaration.name attempt)
  match attempts.find? registry.admits with
  | some renamed => (renamed.name, registry.insert renamed)
  | none => (declaration.name, registry)

/-- The registry after a value of unknown shape was read. -/
def Registry.notingJsonValue (registry : Registry) : Registry :=
  { registry with usesJsonValue := true }

/-! ### Rendering -/

/-- Property names that every struct keeps for itself. -/
def generatedMembers : List String := ["toArgs", "CodingKeys"]

/-- How a value of a shape becomes an argument. -/
def Encoding.ofShape : Shape → Encoding
  | .id (some _) => .rawValue
  | .enumeration _ => .rawValue
  | .object _ => .nested
  | .array ⟨shape, _, _⟩ => .array (Encoding.ofShape shape)
  | .record _ ⟨shape, _, _⟩ => .record (Encoding.ofShape shape)
  | _ => .direct

/-- When the argument for a field is set. -/
def Presence.ofField (field : Field) : Presence :=
  if field.optional then .optional else if field.nullable then .nullable else .required

/-- The wrapper of a value: numbers that are read have one. -/
def Wrapper.ofShape? (shape : Shape) (absence : Bool) (side : Side) : Option Wrapper :=
  match shape, side with
  | .number, .decode => some (if absence then .optionalConvexFloat else .convexFloat)
  | _, _ => none

/-- The cases of an enumeration, under names that do not repeat. -/
def Case.ofValues (values : List String) : List Case :=
  (values.foldl (fun (cases : List Case) value =>
    cases ++ [⟨freshName (caseName value) (cases.map Case.name), value⟩]) [])

/-- The property for a field whose type is known, under a name that is not taken. -/
def Property.ofField (taken : List String) (field : Field) (type : SwiftType) (side : Side) :
    Property where
  name := freshName (propertyName field.name) taken
  key := field.name
  type := if field.admitsAbsence then type.orAbsent else type
  wrapper := Wrapper.ofShape? field.schema.shape field.admitsAbsence side
  argument := match side with
    | .encode => some ⟨.ofShape field.schema.shape, .ofField field⟩
    | .decode => none

mutual

/-- The type of a shape, and the registry with what the type refers to. -/
def Registry.renderShape (path : List String) (side : Side) (registry : Registry) :
    Shape → SwiftType × Registry
  | .string => (.string, registry)
  | .id none => (.string, registry)
  | .boolean => (.bool, registry)
  | .number => (.double, registry)
  | .id (some table) =>
    let (name, registered) := registry.register (.marker ⟨typeName [table] ++ "Table", table⟩)
    (.id name, registered)
  | .array ⟨shape, _, _⟩ =>
    let (element, rendered) := Registry.renderShape (path ++ ["Item"]) side registry shape
    (.array element, rendered)
  | .record _ ⟨shape, _, _⟩ =>
    let (value, rendered) := Registry.renderShape (path ++ ["Value"]) side registry shape
    (.dictionary value, rendered)
  | .object fields =>
    let (properties, rendered) :=
      Registry.renderProperties path side generatedMembers registry fields
    let (name, registered) := rendered.register (.struct ⟨typeName path, side, properties⟩)
    (.named name, registered)
  | .enumeration values =>
    let (name, registered) :=
      registry.register (.enumeration ⟨typeName path ++ "Enum", Case.ofValues values⟩)
    (.named name, registered)
  | .any | .unknown _ _ =>
    match side with
    | .decode => (.jsonValue, registry.notingJsonValue)
    | .encode => (.encodable, registry)

/-- The properties of fields, in order, under names outside `taken` that do not repeat. -/
def Registry.renderProperties (path : List String) (side : Side) (taken : List String)
    (registry : Registry) : List Field → List Property × Registry
  | [] => ([], registry)
  | ⟨name, optional, nullable, ⟨shape, absent, null⟩⟩ :: rest =>
    let (type, rendered) := Registry.renderShape (path ++ [name]) side registry shape
    let property :=
      Property.ofField taken ⟨name, optional, nullable, ⟨shape, absent, null⟩⟩ type side
    let (properties, complete) :=
      Registry.renderProperties path side (taken ++ [property.name]) rendered rest
    (property :: properties, complete)

end

/-- The type and the wrapper of a validator. -/
structure Rendered where
  /-- The type. -/
  type : SwiftType
  /-- The wrapper of a number that is read. -/
  wrapper : Option Wrapper
  deriving DecidableEq, Repr

/-- Renders a validator and registers what its type refers to. -/
def Registry.render (registry : Registry) (validator : Validator) (path : List String)
    (side : Side) : Rendered × Registry :=
  let (type, rendered) := registry.renderShape path side validator.shape
  let absence := validator.admitsAbsence
  (⟨if absence then type.orAbsent else type, Wrapper.ofShape? validator.shape absence side⟩,
    rendered)

/-- Registers the struct of an object's fields and answers its name. -/
def Registry.renderStruct (registry : Registry) (fields : List Field) (path : List String)
    (side : Side) : String × Registry :=
  let (properties, rendered) := registry.renderProperties path side generatedMembers fields
  rendered.register (.struct ⟨typeName path, side, properties⟩)

/-! ### The file of a run -/

/-- Sorts by name; equal names keep their order. -/
def sortByName {α : Type} (name : α → String) (items : List α) : List α :=
  items.mergeSort fun first second => decide (name first ≤ name second)

/-- The file with all registered declarations, each kind in order of names. -/
def Registry.file (registry : Registry) (header : List String) (aliases : List Alias) : File where
  header := header
  usesJsonValue := registry.usesJsonValue
  markers := sortByName Marker.name <| registry.declarations.filterMap fun declaration =>
    match declaration with
    | .marker declared => some declared
    | _ => none
  enumerations := sortByName Enumeration.name <| registry.declarations.filterMap fun declaration =>
    match declaration with
    | .enumeration declared => some declared
    | _ => none
  structs := sortByName Struct.name <| registry.declarations.filterMap fun declaration =>
    match declaration with
    | .struct declared => some declared
    | _ => none
  aliases := aliases

end SwiftBindings.Swift
