/-
**Arguments.**

The arguments of the program name a command and its options. They are read from left to right, and
the first that asks for help or is wrong settles the answer. The value of an option follows an
equals sign or is the next argument, which then must not look like an option itself.
-/

import SwiftBindings.CommandLine.Help
import SwiftBindings.Text.Cut

namespace SwiftBindings.CommandLine

open Text

/-- Which functions are selected where none are named. -/
inductive SelectionMode where
  /-- All that every client may call. -/
  | everyone
  /-- Those of a list. -/
  | curated
  deriving DecidableEq, Repr

/-- The mode with the given name. -/
def SelectionMode.ofName? : String → Option SelectionMode
  | "public" => some .everyone
  | "curated" => some .curated
  | _ => none

/-- What is wrong with the arguments. -/
inductive UsageError where
  /-- An argument has no meaning where it stands. -/
  | unexpected (argument : String)
  /-- An option is given more often than it may be. -/
  | repeated (option : String)
  /-- An option lacks its value. -/
  | missingValue (option : String)
  /-- A value is not one that the option takes. -/
  | invalidValue (option value : String)
  /-- An option without a value is given one. -/
  | needlessValue (option : String)
  /-- There is no such command. -/
  | unknownCommand (name : String)
  deriving DecidableEq, Repr

/-- The error in words. -/
def UsageError.message : UsageError → String
  | .unexpected argument => "error: unexpected argument '" ++ argument ++ "' found"
  | .repeated option => "error: the argument '--" ++ option ++ "' cannot be used multiple times"
  | .missingValue option => "error: a value is required for '--" ++ option ++ "' but none was supplied"
  | .invalidValue option value => "error: invalid value '" ++ value ++ "' for '--" ++ option ++ "'"
  | .needlessValue option => "error: '--" ++ option ++ "' takes no value"
  | .unknownCommand name => "error: unrecognized subcommand '" ++ name ++ "'"

/-! ### Options -/

/-- What an option takes. -/
inductive OptionRule where
  /-- A path that is not empty, once. -/
  | path
  /-- The name of a selection mode, once. -/
  | mode
  /-- A text, any number of times. -/
  | text
  /-- Texts between commas, any number of times. -/
  | texts
  /-- Nothing; the option takes the place of its opposite. -/
  | switch (opposite : String)
  deriving DecidableEq, Repr

/-- A command that takes options. -/
inductive Command where
  /-- Generates code for the functions of an interface. -/
  | api
  /-- Generates code for the tables of a schema. -/
  | schema
  deriving DecidableEq, Repr

/-- The options of a command. -/
def Command.rules : Command → List (String × OptionRule)
  | .api => [("api", .path), ("out", .path), ("root", .text), ("include", .texts),
    ("exclude", .texts), ("default-selection", .mode), ("curated", .texts),
    ("format", .switch "no-format"), ("no-format", .switch "format"), ("config", .path)]
  | .schema => [("schema", .path), ("out", .path), ("ir-out", .path), ("report-out", .path),
    ("format", .switch "no-format"), ("no-format", .switch "format"), ("config", .path)]

/-- The page that tells about a command. -/
def Command.page (brief : Bool) : Command → HelpPage
  | .api => .api brief
  | .schema => .schema

/-- Options with their values, in the order in which they are given. -/
abbrev Given := List (String × String)

/-- The option is given. -/
def Given.has (given : Given) (option : String) : Bool :=
  given.any fun entry => entry.1 == option

/-- The only value of an option. -/
def Given.value? (given : Given) (option : String) : Option String :=
  given.lookup option

/-- All values of an option. -/
def Given.values (given : Given) (option : String) : List String :=
  given.filterMap fun entry => if entry.1 == option then some entry.2 else none

/-- The texts between the commas of a text. -/
def betweenCommas (text : String) : List String :=
  (pieces ',' text.toList).map String.ofList

/-- The options with one more. -/
def Given.add (given : Given) (option value : String) : OptionRule → Except UsageError Given
  | .path =>
    if given.has option then .error (.repeated option)
    else if value.isEmpty then .error (.invalidValue option value)
    else .ok (given ++ [(option, value)])
  | .mode =>
    if given.has option then .error (.repeated option)
    else if (SelectionMode.ofName? value).isNone then .error (.invalidValue option value)
    else .ok (given ++ [(option, value)])
  | .text => .ok (given ++ [(option, value)])
  | .texts => .ok (given ++ (betweenCommas value).map fun piece => (option, piece))
  | .switch opposite =>
    if given.has option then .error (.repeated option)
    else .ok (given.filter (fun entry => entry.1 != opposite) ++ [(option, value)])

/-! ### Single arguments -/

/-- What an argument looks like. -/
inductive Token where
  /-- Two dashes alone: no option follows. -/
  | terminator
  /-- An option, and the value behind its equals sign. -/
  | option (name : String) (value : Option String)
  /-- One dash with letters. -/
  | letters (first : Char)
  /-- Anything else. -/
  | word
  deriving DecidableEq, Repr

/-- What a text looks like as an argument. -/
def Token.ofText (text : String) : Token :=
  match text.toList with
  | ['-', '-'] => .terminator
  | '-' :: '-' :: name =>
    match cutAt? '=' name with
    | some (name, value) => .option (String.ofList name) (some (String.ofList value))
    | none => .option (String.ofList name) none
  | '-' :: first :: _ => .letters first
  | _ => .word

/-- The result of reading the options of a command. -/
inductive Reading where
  /-- The options. -/
  | options (given : Given)
  /-- Help is asked for, in brief or in full. -/
  | help (brief : Bool)
  deriving DecidableEq, Repr

/-- What one argument does. -/
inductive Step where
  /-- It settles the reading. -/
  | stop (reading : Reading)
  /-- It gives an option. -/
  | alone (given : Given)
  /-- It gives an option together with the argument behind it. -/
  | withNext (given : Given)
  deriving DecidableEq, Repr

/-- What an option does that is written with its value, if any, and followed by another argument, if
any. -/
def Command.optionStep (command : Command) (given : Given) (name : String)
    (attached following : Option String) : Except UsageError Step :=
  match command.rules.lookup name, attached, following with
  | none, _, _ => .error (.unexpected ("--" ++ name))
  | some (.switch _), some _, _ => .error (.needlessValue name)
  | some (.switch opposite), none, _ => (given.add name "" (.switch opposite)).map .alone
  | some rule, some value, _ => (given.add name value rule).map .alone
  | some _, none, none => .error (.missingValue name)
  | some rule, none, some value =>
    if Token.ofText value == .word then (given.add name value rule).map .withNext
    else .error (.missingValue name)

/-- What an argument does that is followed by another, if any. -/
def Command.step (command : Command) (given : Given) (argument : String)
    (following : Option String) : Except UsageError Step :=
  match Token.ofText argument with
  | .terminator =>
    match following with
    | none => .ok (.stop (.options given))
    | some extra => .error (.unexpected extra)
  | .letters first => if first = 'h' then .ok (.stop (.help true)) else .error (.unexpected argument)
  | .word => .error (.unexpected argument)
  | .option "help" none => .ok (.stop (.help false))
  | .option "help" (some _) => .error (.needlessValue "help")
  | .option name attached => command.optionStep given name attached following

/-- The options of a command, with those that are given already. -/
def Command.read (command : Command) (given : Given) : List String → Except UsageError Reading
  | [] => .ok (.options given)
  | argument :: rest =>
    match command.step given argument rest.head? with
    | .error error => .error error
    | .ok (.stop reading) => .ok reading
    | .ok (.alone given) => command.read given rest
    | .ok (.withNext given) =>
      match rest with
      | [] => .ok (.options given)
      | _ :: rest => command.read given rest

/-! ### Requests -/

/-- Options of the command for interfaces. -/
structure ApiArguments where
  /-- Declaration file to read. -/
  input : Option String
  /-- File to write. -/
  out : Option String
  /-- Roots to walk. -/
  roots : List String
  /-- Functions to select. -/
  included : List String
  /-- Functions to leave out. -/
  excluded : List String
  /-- What to select where no function is named. -/
  mode : Option SelectionMode
  /-- Functions of the curated list. -/
  curated : List String
  /-- Whether to run the formatter. -/
  formatted : Option Bool
  /-- Configuration to read. -/
  config : Option String
  deriving DecidableEq, Repr

/-- Options of the command for schemas. -/
structure SchemaArguments where
  /-- Schema to read. -/
  input : Option String
  /-- File to write. -/
  out : Option String
  /-- File for the dump of the schema. -/
  dump : Option String
  /-- File for the usage report. -/
  report : Option String
  /-- Whether to run the formatter. -/
  formatted : Option Bool
  /-- Configuration to read. -/
  config : Option String
  deriving DecidableEq, Repr

/-- Whether the formatter is switched on or off. -/
def Given.formatted? (given : Given) : Option Bool :=
  if given.has "format" then some true
  else if given.has "no-format" then some false
  else none

/-- The options of the command for interfaces by their names. -/
def ApiArguments.ofGiven (given : Given) : ApiArguments where
  input := given.value? "api"
  out := given.value? "out"
  roots := given.values "root"
  included := given.values "include"
  excluded := given.values "exclude"
  mode := (given.value? "default-selection").bind SelectionMode.ofName?
  curated := given.values "curated"
  formatted := given.formatted?
  config := given.value? "config"

/-- The options of the command for schemas by their names. -/
def SchemaArguments.ofGiven (given : Given) : SchemaArguments where
  input := given.value? "schema"
  out := given.value? "out"
  dump := given.value? "ir-out"
  report := given.value? "report-out"
  formatted := given.formatted?
  config := given.value? "config"

/-- What the arguments ask for. -/
inductive Request where
  /-- The page about the program, because no command is given. -/
  | overview
  /-- A page of help. -/
  | help (page : HelpPage)
  /-- The version. -/
  | version
  /-- Code for an interface. -/
  | api (arguments : ApiArguments)
  /-- Code for a schema. -/
  | schema (arguments : SchemaArguments)
  deriving DecidableEq, Repr

/-- The page about the commands that are named after each other. -/
def helpRequest : List String → Except UsageError Request
  | [] => .ok (.help .program)
  | ["api"] => .ok (.help (.api false))
  | ["schema"] => .ok (.help .schema)
  | ["help"] => .ok (.help .help)
  | "api" :: name :: _ | "schema" :: name :: _ | "help" :: name :: _ =>
    .error (.unknownCommand name)
  | name :: _ => .error (.unknownCommand name)

/-- The request of a command with the given arguments. -/
def Command.request (command : Command) (arguments : List String) : Except UsageError Request :=
  match command.read [] arguments with
  | .error error => .error error
  | .ok (.help brief) => .ok (.help (command.page brief))
  | .ok (.options given) =>
    match command with
    | .api => .ok (.api (.ofGiven given))
    | .schema => .ok (.schema (.ofGiven given))

/-- What arguments ask for that do not start with a command. -/
def plainRequest (argument : String) (rest : List String) : Except UsageError Request :=
  match Token.ofText argument, rest with
  | .terminator, [] => .ok .overview
  | .terminator, extra :: _ => .error (.unexpected extra)
  | .letters 'h', _ => .ok (.help .program)
  | .letters 'V', _ => .ok .version
  | .option "help" none, _ => .ok (.help .program)
  | .option "version" none, _ => .ok .version
  | .word, _ => .error (.unknownCommand argument)
  | _, _ => .error (.unexpected argument)

/-- What the arguments ask for. -/
def Request.ofArguments : List String → Except UsageError Request
  | [] => .ok .overview
  | "api" :: rest => Command.api.request rest
  | "schema" :: rest => Command.schema.request rest
  | "help" :: names => helpRequest names
  | argument :: rest => plainRequest argument rest

end SwiftBindings.CommandLine
