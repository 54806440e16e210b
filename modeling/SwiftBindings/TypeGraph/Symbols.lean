/-
**Declared names.**

The names that a declaration file gives to types and values, and the names under which it exports
values. A later declaration of a name takes the place of an earlier one. The declarations that the
framework provides come first, so a file may declare their names anew.
-/

import SwiftBindings.Declared.Basic

namespace SwiftBindings.TypeGraph

open Declared

/-- What a type name stands for. -/
inductive Body where
  /-- Another type. -/
  | typeAlias (type : TypeExpr)
  /-- An object type with bases. -/
  | interface (bases : List TypeExpr) (members : List Member)

/-- A declared type. -/
structure Definition where
  /-- Type parameters. -/
  parameters : List Parameter
  /-- What the name stands for. -/
  body : Body

/-- The declared names of a file; of two entries for a name the first counts. -/
structure Symbols where
  /-- Declared types. -/
  types : List (String × Definition)
  /-- Declared values with their types. -/
  values : List (String × TypeExpr)
  /-- Exported names with the names they stand for. -/
  exports : List (String × String)

/-- No names. -/
def Symbols.empty : Symbols := ⟨[], [], []⟩

/-- The names with those of another declaration, whose exports count only where asked to. -/
def Symbols.declare (tracked : Bool) (symbols : Symbols) : Item → Symbols
  | .typeAlias name parameters type exported => { symbols with
      types := (name, ⟨parameters, .typeAlias type⟩) :: symbols.types
      exports := if exported && tracked then (name, name) :: symbols.exports else symbols.exports }
  | .interface name parameters bases members exported => { symbols with
      types := (name, ⟨parameters, .interface bases members⟩) :: symbols.types
      exports := if exported && tracked then (name, name) :: symbols.exports else symbols.exports }
  | .value name type exported => { symbols with
      values := (name, type) :: symbols.values
      exports := if exported && tracked then (name, name) :: symbols.exports else symbols.exports }
  | .exports names => { symbols with
      exports :=
        if tracked then (names.reverse.map fun entry => (entry.2, entry.1)) ++ symbols.exports
        else symbols.exports }

/-- The declaration of a reference to a function of the framework: its kind, its visibility, its
arguments and its result. -/
def functionReference : Item :=
  let own (name parameter : String) : Member :=
    .property name false (.reference parameter [])
  .typeAlias "FunctionReference"
    [⟨"Type", none⟩, ⟨"Visibility", some (.stringLiteral "public")⟩, ⟨"Args", some (.keyword .any)⟩,
      ⟨"ReturnType", some (.keyword .any)⟩,
      ⟨"ComponentPath", some (.union [.keyword .string, .keyword .undefined])⟩]
    (.object [own "_type" "Type", own "_visibility" "Visibility", own "_args" "Args",
      own "_returnType" "ReturnType", own "_componentPath" "ComponentPath"]) true

/-- What the framework declares for every file. -/
def providedItems : List Item :=
  [.typeAlias "FunctionType" []
      (.union [.stringLiteral "query", .stringLiteral "mutation", .stringLiteral "action"]) true,
    .typeAlias "FunctionVisibility" []
      (.union [.stringLiteral "public", .stringLiteral "internal"]) true,
    functionReference,
    .typeAlias "GenericId" [⟨"TableName", none⟩]
      (.intersection [.keyword .string,
        .object [.property "__tableName" false (.reference "TableName" [])]]) true,
    .typeAlias "Id" [⟨"TableName", none⟩]
      (.reference "GenericId" [.reference "TableName" []]) true]

/-- The names of a file with the given declarations. -/
def Symbols.ofItems (items : List Item) : Symbols :=
  items.foldl (Symbols.declare true) (providedItems.foldl (Symbols.declare false) .empty)

/-- What a type name stands for. -/
def Symbols.type? (symbols : Symbols) (name : String) : Option Definition :=
  symbols.types.lookup name

/-- The type of a declared value. -/
def Symbols.value? (symbols : Symbols) (name : String) : Option TypeExpr :=
  symbols.values.lookup name

/-- The declared value that an exported name stands for. -/
def Symbols.exportedValue? (symbols : Symbols) (name : String) : Option String :=
  (symbols.exports.lookup name).filter fun localName => (symbols.value? localName).isSome

end SwiftBindings.TypeGraph
