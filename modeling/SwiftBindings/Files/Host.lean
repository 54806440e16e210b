/-
**What the program asks of its surroundings.**

The program reads and writes files and runs a formatter. `Host` lists these operations for any
monad, so that the program is one definition for a tree of files that is a value and for the files
of a machine.
-/

namespace SwiftBindings.Files

/-- Why an operation on a file fails. -/
inductive Fault where
  /-- A name in the path stands for nothing. -/
  | absent
  /-- The name stands for something already. -/
  | occupied
  /-- A name inside the path stands for a file. -/
  | notDirectory
  /-- The path stands for a directory. -/
  | isDirectory
  /-- A name, or the path as a whole, is too long. -/
  | tooLong
  /-- The path holds the character zero. -/
  | zeroCharacter
  /-- Any other failure, in words. -/
  | other (words : String)
  deriving DecidableEq, Repr

/-- The fault in words. -/
def Fault.message : Fault → String
  | .absent => "No such file or directory (os error 2)"
  | .occupied => "File exists (os error 17)"
  | .notDirectory => "Not a directory (os error 20)"
  | .isDirectory => "Is a directory (os error 21)"
  | .tooLong => "File name too long (os error 36)"
  | .zeroCharacter => "file name contained an unexpected NUL byte"
  | .other words => words

/-- How the run of a formatter ends. -/
inductive Formatting where
  /-- The formatter succeeds. -/
  | done
  /-- No program of that name is installed. -/
  | missing
  /-- The formatter ends with another status than zero, having printed a text. -/
  | failed (status : Nat) (text : String)
  deriving DecidableEq, Repr

/-- The formatters that are known without a look at the machine: `true` accepts every file and
`false` none; neither changes it. Any other program counts as not installed. -/
def Formatting.ofProgram (program : String) : Formatting :=
  match program with
  | "true" => .done
  | "false" => .failed 1 ""
  | _ => .missing

/-- Operations on files and formatters. -/
structure Host (m : Type → Type) where
  /-- The path stands for a file or a directory. -/
  occupied : String → m Bool
  /-- The contents of a file. -/
  read : String → m (Except Fault String)
  /-- Makes a directory and those around it, where they are missing. -/
  makeDirectories : String → m (Except Fault Unit)
  /-- Makes a file with the given contents, or replaces those of an existing one. -/
  write : String → String → m (Except Fault Unit)
  /-- Runs a formatter, given its name and its arguments. -/
  format : String → List String → m Formatting

end SwiftBindings.Files
