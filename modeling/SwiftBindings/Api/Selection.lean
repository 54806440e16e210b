/-
**Selecting functions.**

Functions are selected by their qualified paths: those of a list, or by default all that every
client may call, less those of another list. An entry of a list that names no root is meant below
the first root.
-/

import SwiftBindings.Api.Function

namespace SwiftBindings.Api

open Text

/-- Which functions are selected where no list includes any. -/
inductive DefaultSelection where
  /-- All that every client may call. -/
  | everyone
  /-- Those of a list. -/
  | curated (entries : List String)
  deriving DecidableEq, Repr

/-- Which functions to select. -/
structure Selection where
  /-- Functions to select instead of the default. -/
  included : List String
  /-- Functions to leave out. -/
  excluded : List String
  /-- Functions to select where none are included. -/
  default : DefaultSelection
  deriving DecidableEq, Repr

/-- The qualified path that an entry of a list means. -/
def qualifiedEntry (roots : List String) (entry : String) : String :=
  let path := String.ofList (trimWhile (· == '.') (trimWhile isBlank entry.toList))
  let first := (TypeGraph.segments path).headD ""
  if first ∈ roots then path
  else match roots with
    | primary :: _ => primary ++ "." ++ path
    | [] => path

/-- The function is one of a list. -/
def isListed (roots entries : List String) (function : Function) : Bool :=
  function.qualified ∈ entries.map (qualifiedEntry roots)

/-- The function is selected before any are left out. -/
def Selection.wants (selection : Selection) (roots : List String) (function : Function) : Bool :=
  if selection.included.isEmpty then
    match selection.default with
    | .everyone => function.visibility == .everyone
    | .curated entries => isListed roots entries function
  else isListed roots selection.included function

/-- Leaves out each function whose qualified path is that of the one before it; the path before the
first is given. -/
def dropRepeated (previous : Option String) : List Function → List Function
  | [] => []
  | function :: rest =>
    if previous = some function.qualified then dropRepeated previous rest
    else function :: dropRepeated (some function.qualified) rest

/-- The selected functions by increasing qualified paths, one for each path. -/
def Selection.select (selection : Selection) (roots : List String) (functions : List Function) :
    List Function :=
  let wanted := functions.filter fun function =>
    selection.wants roots function && !isListed roots selection.excluded function
  dropRepeated none <| wanted.mergeSort fun first second => decide (first.qualified ≤ second.qualified)

end SwiftBindings.Api
