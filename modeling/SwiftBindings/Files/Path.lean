/-
**Paths.**

A path is a text whose names stand between slashes. Empty names and dots behind the first name mean
nothing; a slash in front makes the path absolute. The parent of a path, its last name and its
siblings are cut from the text, so that the rest of the text stays as it is written.
-/

import SwiftBindings.Text.Cut

namespace SwiftBindings.Files

open Text

/-- The texts between the slashes of a path. -/
def parts (path : String) : List String :=
  (pieces '/' path.toList).map String.ofList

/-- The path starts at the root of all files. -/
def isAbsolute (path : String) : Bool :=
  path.toList.head? == some '/'

/-- The parts up to the last that means something. The first always does. -/
def significant (parts : List String) : List String :=
  match parts with
  | [] => []
  | first :: rest => first :: (rest.reverse.dropWhile fun part => part == "" || part == ".").reverse

/-- The parts as a path; no part but an empty one in front is the root. -/
def joined (parts : List String) : String :=
  if parts == [""] then "/" else "/".intercalate parts

/-- The last part that means something: a name, or dots that stand for a directory. -/
def lastPart? (path : String) : Option String :=
  (significant (parts path)).getLast?.filter (· != "")

/-- The path of the directory around the path's last part. -/
def parent? (path : String) : Option String :=
  (lastPart? path).map fun _ =>
    let around := (significant (parts path)).dropLast
    if around.isEmpty then "" else joined (significant around)

/-- The last name of a path, unless the path ends in dots. -/
def fileName? (path : String) : Option String :=
  (lastPart? path).filter fun part => part != "." && part != ".."

/-- The name up to its last dot; a dot in front of the name is part of it. -/
def stem (name : String) : String :=
  match (pieces '.' name.toList).reverse with
  | [] | [_] => name
  | _ :: kept =>
    let before := ['.'].intercalate kept.reverse
    if before.isEmpty then name else String.ofList before

/-- The path with a name behind it. -/
def appended (path name : String) : String :=
  if path.isEmpty || path.toList.getLast? == some '/' then path ++ name else path ++ "/" ++ name

/-- The path beside the given one whose name has the same stem and another ending. -/
def sibling (path ending : String) : String :=
  let name := ((fileName? path).map stem).getD "schema" ++ "." ++ ending
  match fileName? path, parent? path with
  | some _, some directory => appended directory name
  | _, _ => appended path name

/-- The path and the paths of the directories around it, the innermost first, at most so many. -/
def around : Nat → String → List String
  | 0, path => [path]
  | count + 1, path =>
    match parent? path with
    | some directory => path :: around count directory
    | none => [path]

end SwiftBindings.Files
