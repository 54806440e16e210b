/-
**The command line.**

The program on the files of a machine. All decisions are made by `CommandLine.run`; here its
operations are carried out and its texts are printed.
-/

import SwiftBindings.CommandLine.Program

open SwiftBindings SwiftBindings.Files

/-- The fault that an error of the system means. -/
def faultOf (error : IO.Error) : Fault :=
  match error with
  | .noFileOrDirectory .. => .absent
  | .alreadyExists .. => .occupied
  | _ => .other (toString error)

/-- The result of an operation, or its fault. -/
def attempted {α : Type} (operation : IO α) : IO (Except Fault α) := do
  match ← operation.toBaseIO with
  | .ok value => return .ok value
  | .error error => return .error (faultOf error)

/-- The files of the machine. Formatters are not started: the known ones are answered for. -/
def machine : Host IO where
  occupied := fun path => return (← attempted (IO.FS.realPath path)).isOk
  read := fun path => attempted (IO.FS.readFile path)
  makeDirectories := fun path => attempted (IO.FS.createDirAll path)
  write := fun path contents => attempted (IO.FS.writeFile path contents)
  format := fun program _ => return .ofProgram program

/-- Runs the program with the given arguments. -/
def main (arguments : List String) : IO UInt32 := do
  let outcome ← CommandLine.run machine arguments
  IO.print outcome.output
  IO.eprint outcome.complaint
  return outcome.status.toUInt32
