/-
**Schemas as they are written.**

A schema is written as a call of `defineSchema` with an object of tables; each table is a call of
`defineTable` with an object of fields, behind which indexes are added by calls of `index`,
`searchIndex` and `vectorIndex`. The default export is looked at first, then the named values.
-/

import SwiftBindings.Failure
import SwiftBindings.Schema.Basic
import SwiftBindings.Schema.Builder
import SwiftBindings.Script.Module

namespace SwiftBindings

open Script

/-! ### Indexes -/

/-- The kind of index that a member of this name adds. -/
def IndexKind.ofMember? : String → Option IndexKind
  | "index" => some .index
  | "searchIndex" => some .search
  | "vectorIndex" => some .vector
  | _ => none

/-- The key under which the options of an index name the searched field. -/
def IndexKind.fieldKey : IndexKind → String
  | .vector => "vectorField"
  | _ => "searchField"

/-- The string literals in the list that a term stands for. -/
def listedStrings (env : Environment) (term : Term) : List String :=
  match (env.resolve term).form with
  | .array items => env.strings items
  | _ => []

/-- The fields that the options of a full-text or vector index name. -/
def searchedFields (env : Environment) (kind : IndexKind) (options : Term) : List String :=
  match (env.resolve options).form with
  | .object entries =>
    let members := env.members entries
    ((members.lookup kind.fieldKey).bind env.string?).toList ++
      ((members.lookup "filterFields").map (listedStrings env)).getD []
  | _ => []

/-- The index that a call with the given arguments adds. -/
def Index.ofArguments (env : Environment) (kind : IndexKind) (arguments : List Term) : Index where
  kind := kind
  name := (arguments.head?.bind env.string?).getD ""
  fields :=
    match kind, arguments[1]? with
    | .index, some fields => listedStrings env fields
    | _, some options => searchedFields env kind options
    | _, none => []

/-! ### Tables -/

/-- The call that adds an index to a table: the table, the kind of index and the arguments. -/
def Script.Call.index? (call : Call) : Option (Term × IndexKind × List Term) :=
  match call.receiver, call.name.bind IndexKind.ofMember? with
  | some receiver, some kind => some (receiver, kind, call.arguments)
  | _, _ => none

/-- The table that a call of `defineTable` defines. -/
def Table.ofCall (env : Environment) (name : String) (indexes : List Index) (call : Call) :
    Except SchemaFault Table :=
  if call.name != some "defineTable" then .error (.notTable name)
  else
    match call.arguments.head?.bind env.objectEntries? with
    | some entries => .ok ⟨name, fieldsOf env (validatorTo env maximalSteps) entries, indexes⟩
    | none => .error (.noTableObject name)

/-- The table that a term defines, with the indexes that are added to it outside the term. Index
calls are followed for as long as there are any, so a table that is an index of itself has no value.
-/
def Script.Environment.table? (env : Environment) (name : String) (indexes : List Index)
    (term : Term) : Option (Except SchemaFault Table) :=
  match term.call? with
  | none => some (.error (.notTable name))
  | some call =>
    match call.index? with
    | some (table, kind, arguments) =>
      env |>.table? name (.ofArguments env kind arguments :: indexes) (env.resolve table)
    | none => some (Table.ofCall env name indexes call)
partial_fixpoint

/-! ### Schemas -/

/-- The arguments of the schema definition that a term stands for. -/
def schemaArguments? (env : Environment) (term : Term) : Option (List Term) :=
  match (env.resolve term).call? with
  | some ⟨_, some "defineSchema", arguments⟩ => some arguments
  | _ => none

/-- The tables of entries, in order; the first fault ends the reading. -/
def tablesOfEntries (env : Environment) : Members → Option (Except SchemaFault (List Table))
  | [] => some (.ok [])
  | (name, value) :: rest =>
    (env.table? name [] (env.resolve value)).bind fun read => match read with
      | .error fault => some (.error fault)
      | .ok table => (tablesOfEntries env rest).map (Except.map (table :: ·))

/-- The tables of a schema definition with the given arguments. -/
def tablesOf (env : Environment) (arguments : List Term) :
    Option (Except SchemaFault (List Table)) :=
  match arguments with
  | [] => some (.error .noArgument)
  | argument :: _ =>
    match (env.resolve argument).form with
    | .object entries => tablesOfEntries env (env.members entries)
    | _ => some (.error .notObject)

/-- The arguments of the schema definition of a module. -/
def Script.Environment.schemaDefinition? (env : Environment) : Option (List Term) :=
  (env.defaults ++ env.bindings.map Prod.snd).findSome? (schemaArguments? env)

/-- The tables that the values of a module define. -/
def schemaTables (env : Environment) : Option (Except Failure (List Table)) :=
  match env.schemaDefinition? with
  | none => some (.error .missingSchema)
  | some arguments => (tablesOf env arguments).map (Except.mapError .invalidSchema)

/-- What the reading of a schema from the items of a module comes to; nothing when it comes to no
end. -/
def Schema.ofItems? (path : String) (items : List ModuleItem) : Option (Except Failure Schema) :=
  (schemaTables (.ofItems items)).map (Except.map fun tables => ⟨path, tables⟩)

/-- What the reading of a schema from a text comes to; nothing when it comes to no end. -/
def Schema.read? (path source : String) : Option (Except Failure Schema) :=
  match readModule source with
  | .error position => some (.error (.syntaxError position))
  | .ok items => Schema.ofItems? path items

/-- The schema that a text defines. A reading that comes to no end gives no answer; in its place
stands a fault of its own. -/
def Schema.read (path source : String) : Except Failure Schema :=
  (Schema.read? path source).getD (.error (.invalidSchema .endless))

end SwiftBindings
