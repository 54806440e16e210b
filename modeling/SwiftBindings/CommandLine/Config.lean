/-
**Configurations.**

A configuration is a TOML document with three sections. Every key may be left out, and a key that is
not known makes the whole configuration wrong. A section may also be a list of its values in the
order of its keys; values beyond the last key are ignored.
-/

import SwiftBindings.CommandLine.Arguments
import SwiftBindings.Toml.Reader

namespace SwiftBindings.CommandLine

open Toml

/-- The section about interfaces. -/
structure ApiSection where
  /-- Declaration file to read. -/
  input : Option String
  /-- File to write. -/
  out : Option String
  /-- Roots to walk. -/
  roots : Option (List String)
  /-- Functions to select. -/
  included : List String
  /-- Functions to leave out. -/
  excluded : List String
  /-- What to select where no function is named. -/
  mode : Option SelectionMode
  /-- Functions of the curated list. -/
  curated : List String
  deriving DecidableEq, Repr

/-- The section about schemas. -/
structure SchemaSection where
  /-- Schema to read. -/
  input : Option String
  /-- File to write. -/
  out : Option String
  /-- File for the dump of the schema. -/
  dump : Option String
  /-- File for the usage report. -/
  report : Option String
  deriving DecidableEq, Repr

/-- The section about the formatter. -/
structure FormatSection where
  /-- Whether the formatter is run. -/
  enabled : Option Bool
  /-- The formatter with its arguments. -/
  command : Option (List String)
  deriving DecidableEq, Repr

/-- A configuration. -/
structure Config where
  /-- About interfaces. -/
  api : ApiSection
  /-- About schemas. -/
  schema : SchemaSection
  /-- About the formatter. -/
  format : FormatSection
  deriving DecidableEq, Repr

/-- The configuration that says nothing. -/
def Config.empty : Config :=
  ⟨⟨none, none, none, [], [], none, []⟩, ⟨none, none, none, none⟩, ⟨none, none⟩⟩

/-! ### Values -/

/-- The value as a string. -/
def string? : Value → Option String
  | .string text => some text
  | _ => none

/-- The value as a truth value. -/
def boolean? : Value → Option Bool
  | .boolean value => some value
  | _ => none

/-- The value as a list of strings. -/
def strings? : Value → Option (List String)
  | .array items => items.mapM string?
  | _ => none

/-- The value is a list or a table without content. -/
def isEmptyValue : Value → Bool
  | .array [] | .table _ [] => true
  | _ => false

/-- The value as a selection mode: its name, or a table that has nothing under the name. -/
def mode? : Value → Option SelectionMode
  | .string name => SelectionMode.ofName? name
  | .table _ [(name, value)] => if isEmptyValue value then SelectionMode.ofName? name else none
  | _ => none

/-! ### Sections -/

/-- The values of a section by their keys. -/
def section? (keys : List String) : Value → Option Members
  | .table _ members => if members.all (fun entry => keys.contains entry.1) then some members else none
  | .array items => some (keys.zip items)
  | _ => none

/-- What a key says, where it is given; nothing when its value is wrong. -/
def key? {α : Type} (read : Value → Option α) (members : Members) (key : String) :
    Option (Option α) :=
  match members.lookup key with
  | none => some none
  | some value => (read value).map some

/-- The section about interfaces. -/
def ApiSection.read? (value : Value) : Option ApiSection := do
  let members ← section?
    ["input", "out", "roots", "include", "exclude", "default_selection", "curated"] value
  return {
    input := ← key? string? members "input"
    out := ← key? string? members "out"
    roots := ← key? strings? members "roots"
    included := (← key? strings? members "include").getD []
    excluded := (← key? strings? members "exclude").getD []
    mode := ← key? mode? members "default_selection"
    curated := (← key? strings? members "curated").getD [] }

/-- The section about schemas. -/
def SchemaSection.read? (value : Value) : Option SchemaSection := do
  let members ← section? ["input", "out", "ir_out", "report_out"] value
  return {
    input := ← key? string? members "input"
    out := ← key? string? members "out"
    dump := ← key? string? members "ir_out"
    report := ← key? string? members "report_out" }

/-- The section about the formatter. -/
def FormatSection.read? (value : Value) : Option FormatSection := do
  let members ← section? ["enabled", "command"] value
  return {
    enabled := ← key? boolean? members "enabled"
    command := ← key? strings? members "command" }

/-- The configuration that the values of a document give. -/
def Config.ofMembers? (members : Members) : Option Config := do
  let members ← section? ["api", "schema", "format"] (.table .header members)
  return {
    api := (← key? ApiSection.read? members "api").getD Config.empty.api
    schema := (← key? SchemaSection.read? members "schema").getD Config.empty.schema
    format := (← key? FormatSection.read? members "format").getD Config.empty.format }

/-- The configuration that a text gives. -/
def Config.read? (text : String) : Option Config :=
  (Members.read? text).bind Config.ofMembers?

end SwiftBindings.CommandLine
