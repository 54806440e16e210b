/-
**Help texts.**

What the program prints about itself: one page for the program, one for each command, and a brief
and a full page where the options of a command need a list.
-/

namespace SwiftBindings.CommandLine

/-- A page of help. -/
inductive HelpPage where
  /-- The program and its commands. -/
  | program
  /-- The command for interfaces, with an option on one line each or with all there is to say. -/
  | api (brief : Bool)
  /-- The command for schemas. -/
  | schema
  /-- The command that prints help. -/
  | help
  deriving DecidableEq, Repr

/-- Lines of text, each with its line feed. -/
def ofLines (lines : List String) : String :=
  String.join (lines.map (· ++ "\n"))

/-- The name and version of the program. -/
def versionText : String := ofLines ["typebridge 0.1.0"]

/-- The page about the program. -/
def programPage : List String := [
  "Generate Swift bindings from Convex API declarations and schemas",
  "",
  "Usage: typebridge [COMMAND]",
  "",
  "Commands:",
  "  api     Generate argument and return types for functions in api.d.ts",
  "  schema  Generate document types, IR dump and usage report from schema.ts",
  "  help    Print this message or the help of the given subcommand(s)",
  "",
  "Options:",
  "  -h, --help     Print help",
  "  -V, --version  Print version"]

/-- The full page about the command for interfaces. -/
def apiPage : List String := [
  "Generate argument and return types for functions in api.d.ts",
  "",
  "Usage: typebridge api [OPTIONS]",
  "",
  "Options:",
  "      --api <PATH>",
  "          Declaration file to read [default: convex/_generated/api.d.ts]",
  "",
  "      --out <PATH>",
  "          Swift file to write [default: Generated/ConvexApi.swift]",
  "",
  "      --root <NAME>",
  "          Root export to walk; repeat for several [default: api, internal]",
  "",
  "      --include <PATHS>",
  "          Functions to generate, overriding the default selection",
  "",
  "      --exclude <PATHS>",
  "          Functions to leave out",
  "",
  "      --default-selection <MODE>",
  "          Selection used without --include",
  "",
  "          Possible values:",
  "          - public:  Every public function",
  "          - curated: Only the functions in the curated list",
  "",
  "      --curated <PATHS>",
  "          Functions selected by --default-selection=curated",
  "",
  "      --format",
  "          Run the formatter on the generated Swift file",
  "",
  "      --no-format",
  "          Skip the formatter even if the config enables it",
  "",
  "      --config <PATH>",
  "          Config file [default: typebridge.toml when present]",
  "",
  "  -h, --help",
  "          Print help (see a summary with '-h')"]

/-- The brief page about the command for interfaces. -/
def apiSummary : List String := [
  "Generate argument and return types for functions in api.d.ts",
  "",
  "Usage: typebridge api [OPTIONS]",
  "",
  "Options:",
  "      --api <PATH>                Declaration file to read [default: convex/_generated/api.d.ts]",
  "      --out <PATH>                Swift file to write [default: Generated/ConvexApi.swift]",
  "      --root <NAME>               Root export to walk; repeat for several [default: api, internal]",
  "      --include <PATHS>           Functions to generate, overriding the default selection",
  "      --exclude <PATHS>           Functions to leave out",
  "      --default-selection <MODE>  Selection used without --include [possible values: public, curated]",
  "      --curated <PATHS>           Functions selected by --default-selection=curated",
  "      --format                    Run the formatter on the generated Swift file",
  "      --no-format                 Skip the formatter even if the config enables it",
  "      --config <PATH>             Config file [default: typebridge.toml when present]",
  "  -h, --help                      Print help (see more with '--help')"]

/-- The page about the command for schemas. -/
def schemaPage : List String := [
  "Generate document types, IR dump and usage report from schema.ts",
  "",
  "Usage: typebridge schema [OPTIONS]",
  "",
  "Options:",
  "      --schema <PATH>      Schema source to read [default: convex/schema.ts]",
  "      --out <PATH>         Swift file to write [default: Generated/ConvexSchema.swift]",
  "      --ir-out <PATH>      JSON IR dump [default: <out stem>.ir.json next to the output]",
  "      --report-out <PATH>  JSON usage report [default: <out stem>.report.json next to the output]",
  "      --format             Run the formatter on the generated Swift file",
  "      --no-format          Skip the formatter even if the config enables it",
  "      --config <PATH>      Config file [default: typebridge.toml when present]",
  "  -h, --help               Print help"]

/-- The page about the command that prints help. -/
def helpPage : List String := [
  "Print this message or the help of the given subcommand(s)",
  "",
  "Usage: typebridge help [COMMAND]...",
  "",
  "Arguments:",
  "  [COMMAND]...  Print help for the subcommand(s)"]

/-- The text of a page. -/
def HelpPage.text : HelpPage → String
  | .program => ofLines programPage
  | .api true => ofLines apiSummary
  | .api false => ofLines apiPage
  | .schema => ofLines schemaPage
  | .help => ofLines helpPage

/-- What is printed where no command is given: the page about the program and an empty line. -/
def overviewText : String := ofLines (programPage ++ [""])

end SwiftBindings.CommandLine
