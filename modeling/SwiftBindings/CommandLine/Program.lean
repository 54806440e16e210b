/-
**The program.**

A command takes each setting from its arguments, else from the configuration, else from a default.
It reads its source, writes what is generated, and runs the formatter last; the first failure ends
it. What was written before a failure stays.
-/

import SwiftBindings.Api.Generation
import SwiftBindings.CommandLine.Config
import SwiftBindings.Files.Host
import SwiftBindings.Files.Path
import SwiftBindings.Schema.Generation

namespace SwiftBindings.CommandLine

open Files

/-! ### Failures -/

/-- Why a command fails. -/
inductive CommandFailure where
  /-- The configuration that is named is not there. -/
  | configAbsent (path : String)
  /-- The configuration cannot be read. -/
  | configUnreadable (path : String) (fault : Fault)
  /-- The configuration is not one. -/
  | configMalformed (path : String)
  /-- No root is named. -/
  | noRoots
  /-- The curated list is asked for and empty. -/
  | noCuratedList
  /-- The source cannot be read. -/
  | sourceUnreadable (path : String) (fault : Fault)
  /-- Nothing is generated from the source. -/
  | sourceRefused (path : String) (failure : Failure)
  /-- The directory for a file cannot be made. -/
  | directoryRefused (path : String) (fault : Fault)
  /-- A file cannot be written; its content is named. -/
  | fileRefused (content path : String) (fault : Fault)
  /-- The formatter is enabled and no program is named. -/
  | noFormatter
  /-- The formatter is not installed. -/
  | formatterMissing (program : String)
  /-- The formatter fails on a file with a status, having printed a text. -/
  | formatterFailed (program path : String) (status : Nat) (text : String)
  deriving DecidableEq, Repr

/-- The failure in words. -/
def CommandFailure.message : CommandFailure → String
  | .configAbsent path => "Config file not found: " ++ path
  | .configUnreadable path fault => "Failed to read config file " ++ path ++ ": " ++ fault.message
  | .configMalformed path => "Failed to parse config file " ++ path
  | .noRoots => "At least one root export is required"
  | .noCuratedList => "Curated selection requires a curated list (--curated or [api].curated)"
  | .sourceUnreadable path fault => "Failed to read " ++ path ++ ": " ++ fault.message
  | .sourceRefused path failure => failure.message path
  | .directoryRefused path fault =>
    "Failed to create output directory " ++ path ++ ": " ++ fault.message
  | .fileRefused content path fault =>
    "Failed to write " ++ content ++ " to " ++ path ++ ": " ++ fault.message
  | .noFormatter => "Formatter command is empty"
  | .formatterMissing program =>
    "Formatter \x60" ++ program ++ "\x60 not found: cannot find binary path"
  | .formatterFailed program path status text =>
    "Formatter \x60" ++ program ++ "\x60 failed on " ++ path ++ " (exit status: " ++
      toString status ++ "):\n" ++ text

/-! ### Steps -/

section Steps

variable {m : Type → Type} [Monad m] (host : Host m)

/-- The configuration that is looked for where none is named. -/
def defaultConfigPath : String := "typebridge.toml"

/-- The configuration at a path. -/
def readConfig (path : String) : ExceptT CommandFailure m Config := do
  match ← host.read path with
  | .error fault => throw (.configUnreadable path fault)
  | .ok text =>
    match Config.read? text with
    | some config => return config
    | none => throw (.configMalformed path)

/-- The configuration that is named, which must be there, or the one that is looked for, if it is.
-/
def loadConfig (named : Option String) : ExceptT CommandFailure m Config := do
  match named with
  | some path =>
    if ← host.occupied path then readConfig host path else throw (.configAbsent path)
  | none =>
    if ← host.occupied defaultConfigPath then readConfig host defaultConfigPath
    else return .empty

/-- The text of a source. -/
def readSource (path : String) : ExceptT CommandFailure m String := do
  match ← host.read path with
  | .ok text => return text
  | .error fault => throw (.sourceUnreadable path fault)

/-- Writes a file with the given content, in a directory that is made where it is missing. -/
def writeOutput (content path text : String) : ExceptT CommandFailure m Unit := do
  match (parent? path).filter (· != "") with
  | some directory =>
    if let .error fault ← host.makeDirectories directory then
      throw (.directoryRefused directory fault)
  | none => pure ()
  if let .error fault ← host.write path text then throw (.fileRefused content path fault)

/-- The formatter where no other is configured. -/
def defaultFormatter : List String := ["swift-format", "format", "--in-place"]

/-- The formatter to run, where one is to be run at all. -/
def chosenFormatter? (formatted : Option Bool) (config : FormatSection) : Option (List String) :=
  if (formatted.or config.enabled).getD false then some (config.command.getD defaultFormatter)
  else none

/-- Runs a formatter on a file. -/
def runFormatter (path : String) : List String → ExceptT CommandFailure m Unit
  | [] => throw .noFormatter
  | program :: arguments => do
    match ← host.format program (arguments ++ [path]) with
    | .done => return
    | .missing => throw (.formatterMissing program)
    | .failed status text => throw (.formatterFailed program path status text)

/-- The list that is given, unless it is empty. -/
def listOr (given configured : List String) : List String :=
  if given.isEmpty then configured else given

/-! ### Commands -/

/-- The roots that are walked where none are named. -/
def defaultRoots : List String := ["api", "internal"]

/-- The default selection of an interface. -/
def defaultSelection (arguments : ApiArguments) (config : ApiSection) :
    Except CommandFailure Api.DefaultSelection :=
  match (arguments.mode.or config.mode).getD .everyone with
  | .everyone => .ok .everyone
  | .curated =>
    let curated := listOr arguments.curated config.curated
    if curated.isEmpty then .error .noCuratedList else .ok (.curated curated)

/-- Generates code for an interface and tells about it. -/
def runApi (arguments : ApiArguments) : ExceptT CommandFailure m String := do
  let config ← loadConfig host arguments.config
  let roots :=
    if arguments.roots.isEmpty then config.api.roots.getD defaultRoots else arguments.roots
  if roots.isEmpty then throw .noRoots
  let default ← ExceptT.mk (pure (defaultSelection arguments config.api))
  let selection : Api.Selection :=
    ⟨listOr arguments.included config.api.included, listOr arguments.excluded config.api.excluded,
      default⟩
  let input := (arguments.input.or config.api.input).getD "convex/_generated/api.d.ts"
  let out := (arguments.out.or config.api.out).getD "Generated/ConvexApi.swift"
  let source ← readSource host input
  match Api.generate input source roots selection with
  | .error failure => throw (.sourceRefused input failure)
  | .ok generated =>
    writeOutput host "Swift bindings" out generated.file.text
    if let some command := chosenFormatter? arguments.formatted config.format then
      runFormatter host out command
    return "Generated " ++ toString generated.functions.length ++ " functions into " ++ out ++ "\n"

/-- Generates code, a dump and a report for a schema and tells about it. -/
def runSchema (arguments : SchemaArguments) : ExceptT CommandFailure m String := do
  let config ← loadConfig host arguments.config
  let input := (arguments.input.or config.schema.input).getD "convex/schema.ts"
  let out := (arguments.out.or config.schema.out).getD "Generated/ConvexSchema.swift"
  let dump := (arguments.dump.or config.schema.dump).getD (sibling out "ir.json")
  let report := (arguments.report.or config.schema.report).getD (sibling out "report.json")
  let source ← readSource host input
  match generateSchema input source with
  | .error failure => throw (.sourceRefused input failure)
  | .ok generated =>
    writeOutput host "Swift bindings" out generated.code
    writeOutput host "schema IR" dump generated.dump
    writeOutput host "usage report" report generated.reportText
    if let some command := chosenFormatter? arguments.formatted config.format then
      runFormatter host out command
    return "Generated " ++ toString generated.schema.tables.length ++ " tables into " ++ out ++
      " (" ++ toString generated.report.issues.length ++ " usage issues)\n"

end Steps

/-! ### Outcomes -/

/-- How a run of the program ends. -/
inductive Outcome where
  /-- It does what is asked and prints a text. -/
  | done (text : String)
  /-- The command fails. -/
  | failed (failure : CommandFailure)
  /-- The arguments are wrong. -/
  | misused (error : UsageError)
  deriving DecidableEq, Repr

/-- The status that the program ends with. -/
def Outcome.status : Outcome → Nat
  | .done _ => 0
  | .failed _ => 1
  | .misused _ => 2

/-- What the program prints about its work. -/
def Outcome.output : Outcome → String
  | .done text => text
  | .failed _ | .misused _ => ""

/-- What the program prints about its failure. -/
def Outcome.complaint : Outcome → String
  | .done _ => ""
  | .failed failure => failure.message ++ "\n"
  | .misused error => error.message ++ "\n"

/-- The outcome of a command. -/
def Outcome.ofResult : Except CommandFailure String → Outcome
  | .ok text => .done text
  | .error failure => .failed failure

/-- Runs the program with the given arguments. -/
def run {m : Type → Type} [Monad m] (host : Host m) (arguments : List String) : m Outcome :=
  match Request.ofArguments arguments with
  | .error error => return .misused error
  | .ok .overview => return .done overviewText
  | .ok (.help page) => return .done page.text
  | .ok .version => return .done versionText
  | .ok (.api arguments) => return .ofResult (← (runApi host arguments).run)
  | .ok (.schema arguments) => return .ofResult (← (runSchema host arguments).run)

end SwiftBindings.CommandLine
