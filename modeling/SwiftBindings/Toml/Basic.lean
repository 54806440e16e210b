/-
**TOML values.**

A document is a table: keys with values in order. Tables remember how they came to be, because that
says which later lines may add to them: a table with a header of its own is closed to dotted keys, a
table made by dotted keys is closed to headers, and a table written as a value is closed to both.
-/

import SwiftBindings.Keyed

namespace SwiftBindings.Toml

/-- How a table comes to be. -/
inductive Origin where
  /-- By its own header. -/
  | header
  /-- By the header of a table inside it. -/
  | implied
  /-- By dotted keys. -/
  | dotted
  /-- As a value between braces. -/
  | braces
  deriving DecidableEq, Repr

/-- A value. -/
inductive Value where
  /-- A string. -/
  | string (text : String)
  /-- A truth value. -/
  | boolean (value : Bool)
  /-- A number, as it is written. -/
  | number (text : String)
  /-- A date, a time or both, as written. -/
  | moment (text : String)
  /-- A list. -/
  | array (items : List Value)
  /-- A table. -/
  | table (origin : Origin) (members : List (String × Value))

/-- Keys with values. -/
abbrev Members := Keyed String Value

/-! ### Adding to tables -/

/-- Dotted keys may add to the table, when more names follow in the key or none. -/
def Origin.isOpenToKeys (more : Bool) : Origin → Bool
  | .dotted => true
  | .implied => more
  | .header | .braces => false

/-- The members with a value under a dotted key, the names of which come in order. -/
def Members.assign (value : Value) : List String → Members → Option Members
  | [], _ => none
  | [name], members =>
    match members.lookup name with
    | none => some (Keyed.put name value members)
    | some _ => none
  | name :: rest, members =>
    match members.lookup name with
    | none => do return Keyed.put name (.table .dotted (← Members.assign value rest [])) members
    | some (.table origin inner) =>
      if origin.isOpenToKeys (rest.length != 1) then do
        return Keyed.put name (.table origin (← Members.assign value rest inner)) members
      else none
    | some _ => none

/-- The members with the table of a header opened. -/
def Members.openTable : List String → Members → Option Members
  | [], members => some members
  | [name], members =>
    match members.lookup name with
    | none => some (Keyed.put name (.table .header []) members)
    | some (.table .implied inner) => some (Keyed.put name (.table .header inner) members)
    | some _ => none
  | name :: rest, members =>
    match members.lookup name with
    | none => do return Keyed.put name (.table .implied (← Members.openTable rest [])) members
    | some (.table origin inner) =>
      if origin = .braces then none
      else do return Keyed.put name (.table origin (← Members.openTable rest inner)) members
    | some _ => none

/-- The members with a change made inside the table at the end of a path. -/
def Members.inside (change : Members → Option Members) : List String → Members → Option Members
  | [], members => change members
  | name :: rest, members =>
    match members.lookup name with
    | some (.table origin inner) => do
      return Keyed.put name (.table origin (← Members.inside change rest inner)) members
    | _ => none

end SwiftBindings.Toml
