/-
**The values behind names.**

A module gives names to values at its top level. A term is followed through parentheses, assertions
about types and names to the term that it stands for, at most `maximalSteps` steps far. The entries
of an object literal are its keys with their terms: the entries of spread objects are merged in, a
key keeps the place where it first stands, and its last term counts.
-/

import SwiftBindings.Keyed
import SwiftBindings.Script.Lowering

namespace SwiftBindings.Script

/-- The values that a module names and exports. -/
structure Environment where
  /-- Variables with their first values, in order. -/
  bindings : List (String × Term)
  /-- Values of default exports. -/
  defaults : List Term

/-- The values of a module with the given items. -/
def Environment.ofItems (items : List ModuleItem) : Environment where
  bindings := items.filterMap fun item => match item with
    | .binding name initial => some (name, initial)
    | _ => none
  defaults := items.filterMap fun item => match item with
    | .defaultExport value => some value
    | _ => none

/-- The value of a name; of several values the last counts. -/
def Environment.value? (env : Environment) (name : String) : Option Term :=
  (env.bindings.findRev? fun entry => entry.1 == name).map Prod.snd

/-! ### Following names -/

/-- The greatest number of steps from a term to what it stands for, and of spread objects inside
each other. -/
def maximalSteps : Nat := 32

/-- The term that a term stands for at one remove. -/
def Environment.step? (env : Environment) (term : Term) : Option Term :=
  match term.form with
  | .wrapped inner => some inner
  | .name name => env.value? name
  | _ => none

/-- The term reached after at most the given number of steps. -/
def Environment.follow (env : Environment) : Nat → Term → Term
  | 0, term => term
  | steps + 1, term =>
    match env.step? term with
    | some next => env.follow steps next
    | none => term

/-- The term that a term stands for. -/
def Environment.resolve (env : Environment) (term : Term) : Term :=
  env.follow maximalSteps term

/-- The text of a term that stands for a string literal. -/
def Environment.string? (env : Environment) (term : Term) : Option String :=
  match (env.resolve term).form with
  | .string value => some value
  | _ => none

/-- The string literals among the items of a list. -/
def Environment.strings (env : Environment) (items : List Term) : List String :=
  items.filterMap env.string?

/-! ### Calls -/

/-- A call of a function or of an object's member. -/
structure Call where
  /-- The object whose member is called. -/
  receiver : Option Term
  /-- Name of the function or of the member, where it has one. -/
  name : Option String
  /-- Arguments in order. -/
  arguments : List Term

/-- The call that a term is. -/
def Term.call? (term : Term) : Option Call :=
  match term.form with
  | .call ⟨.name name, _⟩ arguments => some ⟨none, some name, arguments⟩
  | .call ⟨.member object property, _⟩ arguments => some ⟨some object, some property, arguments⟩
  | .call _ arguments => some ⟨none, none, arguments⟩
  | _ => none

/-! ### Entries of objects -/

/-- Keys with their terms, in order. -/
abbrev Members := Keyed String Term

/-- The members with those that an entry contributes, given those of a spread object. -/
def Environment.mergeEntry (env : Environment) (spread : Term → Members) (members : Members) :
    Entry → Members
  | .property key value => Keyed.put key value members
  | .computed key value =>
    match env.string? key with
    | some key => Keyed.put key value members
    | none => members
  | .spread operand => Keyed.extend members (spread operand)
  | .other => members

/-- The entries of the object literal that a term stands for, or of the one in a call of `object`.
-/
def Environment.objectEntries? (env : Environment) (term : Term) : Option (List Entry) :=
  let resolved := env.resolve term
  match resolved.form, resolved.call? with
  | .object entries, _ => some entries
  | _, some ⟨_, some "object", argument :: _⟩ =>
    match (env.resolve argument).form with
    | .object entries => some entries
    | _ => none
  | _, _ => none

/-- The members of an object with the given entries, with spread objects read to a depth. -/
def Environment.membersTo (env : Environment) : Nat → List Entry → Members
  | 0, entries => entries.foldl (env.mergeEntry fun _ => []) []
  | depth + 1, entries =>
    entries.foldl (env.mergeEntry fun operand =>
      match env.objectEntries? operand with
      | some inner => env.membersTo depth inner
      | none => []) []

/-- The members of an object with the given entries. -/
def Environment.members (env : Environment) (entries : List Entry) : Members :=
  env.membersTo maximalSteps entries

end SwiftBindings.Script
