/-
**Trees of files.**

A tree holds files and directories by their locations, which are the names from the root of all files
down, and knows the location of the working directory. A path is walked name by name from the root or
from the working directory: each name but the last must stand for a directory, a dot stays, and two dots
go to the directory around. The working directory and those around it are there and hold nothing else
that is known.

A tree stands for files that nobody else uses, on a disk with room for them: there are no links, no
devices and no permissions, and a file that can be made is written whole.
-/

import SwiftBindings.Files.Host
import SwiftBindings.Files.Path
import SwiftBindings.Keyed
import SwiftBindings.Text.Position

namespace SwiftBindings.Files

/-- What a location holds. -/
inductive Entry where
  /-- A directory. -/
  | directory
  /-- A file. -/
  | file (contents : String)
  deriving DecidableEq, Repr

/-- Names from the root of all files down. -/
abbrev Location := List String

/-- The location of the directory around a location. The root lies in itself. -/
def Location.up (location : Location) : Location := location.dropLast

/-- Files and directories by their locations. -/
structure Tree where
  /-- The location of the working directory. -/
  home : Location
  /-- What each location holds. -/
  entries : Keyed Location Entry

/-- The location is that of the working directory or of a directory around it. -/
def Tree.isStanding (tree : Tree) (location : Location) : Bool :=
  location.isPrefixOf tree.home

/-- What a location holds. -/
def Tree.lookup? (tree : Tree) (location : Location) : Option Entry :=
  if tree.isStanding location then some .directory else tree.entries.lookup location

/-- The location holds a directory. -/
def Tree.hasDirectory (tree : Tree) (location : Location) : Bool :=
  tree.lookup? location == some .directory

/-- The tree with an entry at a location. -/
def Tree.put (tree : Tree) (location : Location) (entry : Entry) : Tree :=
  ⟨tree.home, Keyed.put location entry tree.entries⟩

/-! ### Walking -/

/-- The greatest number of bytes in a name. -/
def longestName : Nat := 255

/-- The greatest number of bytes in a path. -/
def longestPath : Nat := 4095

/-- The name is longer than a name can be. -/
def isTooLong (name : String) : Bool :=
  decide (longestName < name.utf8ByteSize)

/-- Where names lead from a location. -/
def Tree.walk (tree : Tree) : Location → List String → Except Fault Location
  | here, [] => .ok here
  | here, name :: rest =>
    if !tree.hasDirectory here then .error .notDirectory
    else if name == "." then tree.walk here rest
    else if name == ".." then tree.walk here.up rest
    else if isTooLong name then .error .tooLong
    else if (tree.lookup? (here ++ [name])).isNone then .error .absent
    else tree.walk (here ++ [name]) rest

/-- Where a path starts. -/
def Tree.startOf (tree : Tree) (path : String) : Location :=
  if isAbsolute path then [] else tree.home

/-- The names of a path, dots included. -/
def namesOf (path : String) : List String :=
  (parts path).filter (· != "")

/-- The path ends in a slash. -/
def endsInSlash (path : String) : Bool :=
  path.toList.getLast? == some '/'

/-- A path that no operation accepts, whatever the tree holds. -/
def fault? (path : String) : Option Fault :=
  if '\x00' ∈ path.toList then some .zeroCharacter
  else if path.isEmpty then some .absent
  else if longestPath < path.utf8ByteSize then some .tooLong
  else none

/-- The location that a path stands for. A slash at the end asks for a directory. -/
def Tree.locate (tree : Tree) (path : String) : Except Fault Location :=
  match fault? path with
  | some fault => .error fault
  | none =>
    tree.walk (tree.startOf path) (namesOf path ++ if endsInSlash path then ["."] else [])

/-- The location where the last name of a path is or would be made: the location of the directory
around it, and the name, which is none when the path ends in dots. -/
def Tree.place (tree : Tree) (path : String) : Except Fault (Location × Option String) :=
  match fault? path with
  | some fault => .error fault
  | none =>
    let names := namesOf path
    match tree.walk (tree.startOf path) names.dropLast with
    | .error fault => .error fault
    | .ok around =>
      if !tree.hasDirectory around then .error .notDirectory
      else .ok (around, names.getLast?.filter fun name => name != "." && name != "..")

/-! ### Operations -/

/-- The path stands for something. -/
def Tree.holds (tree : Tree) (path : String) : Bool :=
  match tree.locate path with
  | .ok _ => true
  | .error _ => false

/-- The path stands for a directory. -/
def Tree.isDirectory (tree : Tree) (path : String) : Bool :=
  match tree.locate path with
  | .ok location => tree.hasDirectory location
  | .error _ => false

/-- The contents of the file that a path stands for. -/
def Tree.read (tree : Tree) (path : String) : Except Fault String :=
  match tree.locate path with
  | .error fault => .error fault
  | .ok location =>
    match tree.lookup? location with
    | some (.file contents) => .ok contents
    | _ => .error .isDirectory

/-- The tree with a file of the given contents. -/
def Tree.write (tree : Tree) (path contents : String) : Except Fault Tree :=
  match tree.place path with
  | .error fault => .error fault
  | .ok (_, none) => .error .isDirectory
  | .ok (around, some name) =>
    if endsInSlash path then .error .isDirectory
    else if isTooLong name then .error .tooLong
    else if tree.hasDirectory (around ++ [name]) then .error .isDirectory
    else .ok (tree.put (around ++ [name]) (.file contents))

/-- The tree with one more directory. -/
def Tree.makeDirectory (tree : Tree) (path : String) : Except Fault Tree :=
  match tree.place path with
  | .error fault => .error fault
  | .ok (_, none) => .error .occupied
  | .ok (around, some name) =>
    if isTooLong name then .error .tooLong
    else if (tree.lookup? (around ++ [name])).isSome then .error .occupied
    else .ok (tree.put (around ++ [name]) .directory)

/-- Makes the first of the directories, after those that follow it where one is missing. A directory
that is there already is left. What is made before a failure stays. -/
def Tree.makeAlong (tree : Tree) : List String → Except Fault Unit × Tree
  | [] => (.ok (), tree)
  | path :: around =>
    if path.isEmpty then (.ok (), tree)
    else
      match tree.makeDirectory path with
      | .ok made => (.ok (), made)
      | .error .absent =>
        match tree.makeAlong around with
        | (.error fault, next) => (.error fault, next)
        | (.ok (), next) =>
          match next.makeDirectory path with
          | .ok made => (.ok (), made)
          | .error fault =>
            if next.isDirectory path then (.ok (), next) else (.error fault, next)
      | .error fault => if tree.isDirectory path then (.ok (), tree) else (.error fault, tree)

/-- Makes a directory and those around it, where they are missing. -/
def Tree.makeDirectories (tree : Tree) (path : String) : Except Fault Unit × Tree :=
  tree.makeAlong (around path.length path)

/-! ### Trees of given files -/

/-- The location of the working directory where none is told. -/
def scratch : Location := ["tmp", "scratch"]

/-- The tree with no files. -/
def Tree.empty : Tree := ⟨scratch, []⟩

/-- The tree with the directories along the names of a location, from a location on. -/
def Tree.withDirectories (tree : Tree) (here : Location) : List String → Tree
  | [] => tree
  | name :: rest =>
    (tree.put (here ++ [name]) .directory).withDirectories (here ++ [name]) rest

/-- The tree with a file and the directories around it. -/
def Tree.withFile (tree : Tree) (file : String × String) : Tree :=
  let names := namesOf file.1
  (tree.withDirectories tree.home names.dropLast).put (tree.home ++ names) (.file file.2)

/-- The tree with the given files, each a path and its contents. -/
def Tree.ofFiles (files : List (String × String)) : Tree :=
  files.foldl Tree.withFile .empty

/-- The files below the working directory, each with its path. -/
def Tree.files (tree : Tree) : List (String × String) :=
  tree.entries.filterMap fun entry =>
    match entry with
    | (location, .file contents) =>
      (tree.home.isPrefixOf? location).map fun names => ("/".intercalate names, contents)
    | (_, .directory) => none

/-! ### The tree as a host -/

/-- The operations on a tree that is passed on from one to the next. -/
def Tree.host : Host (StateM Tree) where
  occupied := fun path => do return (← get).holds path
  read := fun path => do return (← get).read path
  makeDirectories := fun path => modifyGet fun tree => tree.makeDirectories path
  write := fun path contents => modifyGet fun tree =>
    match tree.write path contents with
    | .ok next => (.ok (), next)
    | .error fault => (.error fault, tree)
  format := fun program _ => return .ofProgram program

end SwiftBindings.Files
