/-
**Types by substitution.**

What a type as written means can be said without a graph: a type parameter stands for the structure of
its argument, a declared type for the structure of its body with the arguments put in, a query for the
structure of the value's type along the path. `expand` computes this structure as a `Tree`. It
remembers nothing and knows no places, so a declaration is expanded again each time it is referred to.

The operations on structures (`Tree.branches`, `recordTree`, `filterTree` and so on) are those on types
of a graph with structures in place of places. Declared names are expanded through bounds
(`Expansion.within`): so many values within each other, and so many declared types within each other.
A bound that is too small gives no structure at all, and a larger one never gives another structure
(`Expansion.within_mono`).
-/

import SwiftBindings.Proofs.TypeGraph.OrderIndependence

set_option linter.unusedSectionVars false

namespace SwiftBindings.TypeGraph

open Declared

/-! ### Structures -/

/-- A property of an object type: its key, whether it may be absent, and the structure of its type. -/
abbrev Branch := String × Bool × Tree

/-- The structure is the keyword. -/
def Tree.isKeyword (keyword : Keyword) : Tree → Bool
  | .primitive other => other == keyword
  | _ => false

/-- The structure is of an object type or an intersection. -/
def Tree.isStructured : Tree → Bool
  | .object _ _ | .intersection _ => true
  | _ => false

/-- The value of a string literal. -/
def Tree.stringValue? : Tree → Option String
  | .stringLiteral value => some value
  | _ => none

/-- The alternatives of a union. -/
def Tree.unionMembers? : Tree → Option (List Tree)
  | .union members => some members
  | _ => none

/-- The alternatives that a member of a union brings. -/
def Tree.alternatives (tree : Tree) : List Tree :=
  tree.unionMembers?.getD [tree]

/-- The keys that a type of keys lists. -/
def Tree.literalKeys? : Tree → Option (List String)
  | .stringLiteral value => some [value]
  | .union members => members.mapM Tree.stringValue?
  | _ => none

/-! ### Properties of structures -/

/-- Inherited members as properties. -/
def inheritedBranches (names : List String) : List Branch :=
  names.map fun name => (name, false, .opaqueType)

/-- The properties followed by those of another list whose names are not among them. -/
def mergeBranches (first second : List Branch) : List Branch :=
  second.foldl (fun merged branch =>
    if merged.any fun other => other.1 == branch.1 then merged else merged ++ [branch]) first

/-- The properties with one in place of that of its name, or behind them. -/
def upsertBranch : List Branch → Branch → List Branch
  | [], branch => [branch]
  | first :: rest, branch =>
    if first.1 = branch.1 then branch :: rest else first :: upsertBranch rest branch

/-- The properties of a structure through at most the given number of intersections. -/
def Tree.branchesWithin : Nat → Tree → List Branch
  | 0, _ => []
  | levels + 1, tree =>
    match tree with
    | .object branches _ => branches
    | .intersection parts =>
      parts.foldl (fun merged part => mergeBranches merged (part.branchesWithin levels)) []
    | .primitive .string | .stringLiteral _ => inheritedBranches stringMembers
    | .primitive .number | .numberLiteral _ => inheritedBranches numberMembers
    | .primitive .boolean | .booleanLiteral _ => inheritedBranches booleanMembers
    | _ => []

/-- The properties of a structure. -/
def Tree.branches (tree : Tree) : List Branch :=
  tree.branchesWithin (walkDepth + 1)

/-- The type of further properties through at most the given number of intersections. -/
def Tree.indexWithin : Nat → Tree → Option Tree
  | 0, _ => none
  | levels + 1, tree =>
    match tree with
    | .object _ index => index
    | .intersection parts => parts.findSome? fun part => part.indexWithin levels
    | _ => none

/-- The type of further properties. -/
def Tree.index? (tree : Tree) : Option Tree :=
  tree.indexWithin (walkDepth + 1)

/-- The property of a name. -/
def Tree.branch? (tree : Tree) (name : String) : Option Branch :=
  tree.branches.find? fun branch => branch.1 == name

/-- The value of the string literal that is the type of a property. -/
def Tree.literalBranch? (tree : Tree) (name : String) : Option String :=
  (tree.branch? name).bind fun branch => branch.2.2.stringValue?

/-- The structure below a structure along a path of properties. -/
def Tree.follow? (tree : Tree) (path : List String) : Option Tree :=
  path.foldlM (fun current name => (current.branch? name).map fun branch => branch.2.2) tree

/-! ### Types of the framework -/

/-- The structure of a mapping. -/
def recordTree (key value : Tree) : Tree :=
  match key.literalKeys? with
  | some names => .object (names.map fun name => (name, false, value)) none
  | none => .object [] (some value)

/-- The property with its presence changed. -/
def PresenceChange.applyBranch (change : PresenceChange) (branch : Branch) : Branch :=
  (branch.1, match change with
    | .partially => true
    | .required => false
    | .unchanged => branch.2.1, branch.2.2)

/-- The structure with the presence of its properties changed. -/
def presenceTree (change : PresenceChange) (target : Tree) : Tree :=
  if target.branches.isEmpty && target.index?.isNone then .unresolved
  else .object (target.branches.map change.applyBranch) target.index?

/-- A union without null and undefined. -/
def nonNullableTree (target : Tree) : Tree :=
  match target.unionMembers? with
  | none => target
  | some members =>
    match members.filter fun member => !member.isKeyword .null && !member.isKeyword .undefined with
    | [single] => single
    | kept => .union kept

/-- The structure exposes what marks a reference to a function. -/
def Tree.isMarkedReference (tree : Tree) : Bool :=
  ["_type", "_visibility"].all fun name => (tree.branch? name).isSome

/-- The properties whose types are kept, each with what is kept of it. -/
def keepBranches (keep : Tree → Option Tree) (branches : List Branch) : List Branch :=
  branches.filterMap fun branch => (keep branch.2.2).map fun tree => (branch.1, branch.2.1, tree)

/-- The structure declares the wanted visibility, if one is wanted. -/
def Tree.hasVisibility (wanted : Option String) (tree : Tree) : Bool :=
  wanted.all fun visibility => tree.literalBranch? "_visibility" == some visibility

/-- The functions of a structure whose visibility is the wanted one, through at most the given number
of levels. -/
def filterTree (wanted : Option String) : Nat → Tree → Option Tree
  | 0, _ => none
  | levels + 1, tree =>
    if tree.isMarkedReference then
      if tree.hasVisibility wanted then some tree else none
    else if !tree.isStructured then none
    else
      let kept := keepBranches (filterTree wanted levels) tree.branches
      if kept.isEmpty then none else some (.object kept none)

/-- The functions of an interface whose visibility is the one that a filter declares. -/
def filteredTree (api filter : Tree) : Tree :=
  if api.isStructured then
    (filterTree (filter.literalBranch? "_visibility") (walkDepth + 1) api).getD (.object [] none)
  else .unresolved

/-- The structure of a name that no file declares, with arguments. -/
def providedTree (name : String) : List Tree → Tree
  | [target] =>
    if name = "Array" ∨ name = "ReadonlyArray" then .array target
    else if name = "NonNullable" then nonNullableTree target
    else match PresenceChange.ofName? name with
      | some change => presenceTree change target
      | none => .unresolved
  | [first, second] =>
    if name = "Record" then recordTree first second
    else if name = "FilterApi" then filteredTree first second
    else .unresolved
  | _ => .unresolved

/-! ### Types as written -/

/-- How declared names are expanded. -/
structure Expansion where
  /-- The structure of a declared type with arguments. -/
  instantiate : String → List Tree → Option Tree
  /-- The structure of the type of a value. -/
  valueType : String → Option Tree

/-- The structures that type parameters stand for; of two entries for a name the first counts. -/
abbrev TreeScope := List (String × Tree)

/-- The properties of an object type and the type of further ones. -/
structure TreeShape where
  /-- Properties in order of declaration. -/
  branches : List Branch
  /-- Type of the values under any other string. -/
  index : Option Tree

/-- The shape with the type of further properties under a type of keys. -/
def TreeShape.indexed (shape : TreeShape) (key value : Tree) : TreeShape :=
  if key.isKeyword .string || key.isKeyword .number then { shape with index := some value } else shape

section Expand

variable (symbols : Symbols) (deeper : Expansion) (scope : TreeScope)

mutual

/-- The structure of a type as written. -/
def expand : TypeExpr → Option Tree
  | .keyword keyword => some (.primitive keyword)
  | .stringLiteral value => some (.stringLiteral value)
  | .numberLiteral text => some (.numberLiteral text)
  | .booleanLiteral value => some (.booleanLiteral value)
  | .reference name arguments =>
    match if arguments.isEmpty then scope.lookup name else none with
    | some tree => some tree
    | none => do
      let trees ← expandAll arguments
      if (symbols.type? name).isSome then deeper.instantiate name trees
      else some (providedTree name trees)
  | .array element => do return .array (← expand element)
  | .tuple elements => do return .tuple (← expandAll elements)
  | .union members => do return .union (← expandAlternatives members)
  | .intersection members => do return .intersection (← expandAll members)
  | .object members => do
    let shape ← expandMembers ⟨[], none⟩ members
    return .object shape.branches shape.index
  | .query name => do
    let tree ← deeper.valueType ((segments name).headD "")
    return (tree.follow? (segments name).tail).getD .opaqueType
  | .opaqueText _ => some .opaqueType

/-- The structures of types as written, in order. -/
def expandAll : List TypeExpr → Option (List Tree)
  | [] => some []
  | type :: rest => do return (← expand type) :: (← expandAll rest)

/-- The alternatives of the members of a union, in order. -/
def expandAlternatives : List TypeExpr → Option (List Tree)
  | [] => some []
  | type :: rest => do return (← expand type).alternatives ++ (← expandAlternatives rest)

/-- The shape with further members. -/
def expandMembers (shape : TreeShape) : List Member → Option TreeShape
  | [] => some shape
  | .property name optional type :: rest => do
    let tree ← expand type
    expandMembers { shape with branches := upsertBranch shape.branches (name, optional, tree) } rest
  | .index key value :: rest => do
    let keyTree ← expand key
    let valueTree ← expand value
    expandMembers (shape.indexed keyTree valueTree) rest

end

/-- The shape with the members of bases. -/
def expandBases (shape : TreeShape) : List TypeExpr → Option TreeShape
  | [] => some shape
  | base :: rest => do
    let tree ← expand symbols deeper scope base
    expandBases ⟨tree.branches.foldl upsertBranch shape.branches, shape.index.or tree.index?⟩ rest

/-- The structure of what a declared type stands for. -/
def expandBody : Body → Option Tree
  | .typeAlias type => expand symbols deeper scope type
  | .interface bases members => do
    let inherited ← expandBases symbols deeper scope ⟨[], none⟩ bases
    let own ← expandMembers symbols deeper scope ⟨[], none⟩ members
    return .object (own.branches.foldl upsertBranch inherited.branches) (own.index.or inherited.index)

end Expand

/-- The scope of a declared type: its parameters with their arguments. A missing argument is the
default, expanded with the parameters before it, or unknown. -/
def expandParameters (symbols : Symbols) (deeper : Expansion) (scope : TreeScope) :
    List Parameter → List Tree → Option TreeScope
  | [], _ => some scope
  | parameter :: rest, argument :: arguments =>
    expandParameters symbols deeper ((parameter.name, argument) :: scope) rest arguments
  | parameter :: rest, [] => do
    let argument ← match parameter.fallback with
      | some fallback => expand symbols deeper scope fallback
      | none => some (.primitive .unknown)
    expandParameters symbols deeper ((parameter.name, argument) :: scope) rest []

/-! ### Declared types and values -/

/-- The structure of a declared type with arguments. -/
def expandInstance (symbols : Symbols) (deeper : Expansion) (name : String) (arguments : List Tree) :
    Option Tree :=
  match symbols.type? name with
  | none => some .unresolved
  | some definition => do
    let scope ← expandParameters symbols deeper [] definition.parameters arguments
    expandBody symbols deeper scope definition.body

/-- The structure of the type of a value. -/
def expandValue (symbols : Symbols) (deeper : Expansion) (name : String) : Option Tree :=
  match symbols.value? name with
  | none => some .unresolved
  | some type => expand symbols deeper [] type

/-- Expansion through at most `chain` declared types within each other, given how values are expanded
within so many. -/
def Expansion.ofChain (symbols : Symbols) (valueType : Nat → String → Option Tree) : Nat → Expansion
  | 0 => ⟨fun _ _ => none, valueType 0⟩
  | chain + 1 => ⟨expandInstance symbols (ofChain symbols valueType chain), valueType (chain + 1)⟩

/-- Expansion through at most `values` values and at most `chain` declared types within each other. -/
def Expansion.within (symbols : Symbols) : Nat → Nat → Expansion
  | 0 => .ofChain symbols fun _ _ => none
  | values + 1 => .ofChain symbols fun chain => expandValue symbols (within symbols values chain)

/-- The structure of the type of an exported value, if no more than `chain` declared types are within
each other. No value occurs within itself, so there are no more values within each other than are
declared and one that is not. -/
def expandExport (symbols : Symbols) (chain : Nat) (name : String) : Option Tree :=
  (symbols.exportedValue? name).bind
    (Expansion.within symbols (symbols.values.length + 1) chain).valueType

section Within

variable (symbols : Symbols) (values chain : Nat)

@[simp] theorem Expansion.instantiate_within_zero (name : String) (arguments : List Tree) :
    (within symbols values 0).instantiate name arguments = none := by
  cases values <;> rfl

@[simp] theorem Expansion.instantiate_within_succ :
    (within symbols values (chain + 1)).instantiate =
      expandInstance symbols (within symbols values chain) := by
  cases values <;> rfl

@[simp] theorem Expansion.valueType_within_zero (name : String) :
    (within symbols 0 chain).valueType name = none := by
  cases chain <;> rfl

@[simp] theorem Expansion.valueType_within_succ :
    (within symbols (values + 1) chain).valueType =
      expandValue symbols (within symbols values chain) := by
  cases chain <;> rfl

end Within

/-! ### Larger bounds -/

/-- What the first expansion gives a structure, the second gives the same. -/
structure Expansion.Below (first second : Expansion) : Prop where
  instantiate : ∀ name trees tree, first.instantiate name trees = some tree →
    second.instantiate name trees = some tree
  valueType : ∀ name tree, first.valueType name = some tree → second.valueType name = some tree

section Below

variable {symbols : Symbols} {first second : Expansion} (below : first.Below second)

include below

section Types

variable (scope : TreeScope)

mutual

theorem expand_mono : ∀ {type : TypeExpr} {tree : Tree},
    expand symbols first scope type = some tree → expand symbols second scope type = some tree
  | .keyword _, _, found => by
    rw [expand] at found ⊢
    exact found
  | .stringLiteral _, _, found => by
    rw [expand] at found ⊢
    exact found
  | .numberLiteral _, _, found => by
    rw [expand] at found ⊢
    exact found
  | .booleanLiteral _, _, found => by
    rw [expand] at found ⊢
    exact found
  | .reference name arguments, tree, found => by
    rw [expand] at found ⊢
    split at found
    · exact found
    · obtain ⟨trees, expanded, found⟩ := Option.bind_eq_some_iff.mp found
      refine Option.bind_eq_some_iff.mpr ⟨trees, expandAll_mono expanded, ?_⟩
      split at found
      · rename_i declared
        rw [if_pos declared]
        exact below.instantiate name trees tree found
      · rename_i undeclared
        rw [if_neg undeclared]
        exact found
  | .array _, _, found => by
    rw [expand] at found ⊢
    obtain ⟨inner, expanded, found⟩ := Option.bind_eq_some_iff.mp found
    exact Option.bind_eq_some_iff.mpr ⟨inner, expand_mono expanded, found⟩
  | .tuple _, _, found => by
    rw [expand] at found ⊢
    obtain ⟨trees, expanded, found⟩ := Option.bind_eq_some_iff.mp found
    exact Option.bind_eq_some_iff.mpr ⟨trees, expandAll_mono expanded, found⟩
  | .union _, _, found => by
    rw [expand] at found ⊢
    obtain ⟨trees, expanded, found⟩ := Option.bind_eq_some_iff.mp found
    exact Option.bind_eq_some_iff.mpr ⟨trees, expandAlternatives_mono expanded, found⟩
  | .intersection _, _, found => by
    rw [expand] at found ⊢
    obtain ⟨trees, expanded, found⟩ := Option.bind_eq_some_iff.mp found
    exact Option.bind_eq_some_iff.mpr ⟨trees, expandAll_mono expanded, found⟩
  | .object _, _, found => by
    rw [expand] at found ⊢
    obtain ⟨shape, expanded, found⟩ := Option.bind_eq_some_iff.mp found
    exact Option.bind_eq_some_iff.mpr ⟨shape, expandMembers_mono expanded, found⟩
  | .query _, _, found => by
    rw [expand] at found ⊢
    obtain ⟨tree, asked, found⟩ := Option.bind_eq_some_iff.mp found
    exact Option.bind_eq_some_iff.mpr ⟨tree, below.valueType _ tree asked, found⟩
  | .opaqueText _, _, found => by
    rw [expand] at found ⊢
    exact found

theorem expandAll_mono : ∀ {types : List TypeExpr} {trees : List Tree},
    expandAll symbols first scope types = some trees →
      expandAll symbols second scope types = some trees
  | [], _, found => by
    rw [expandAll] at found ⊢
    exact found
  | _ :: _, _, found => by
    rw [expandAll] at found ⊢
    obtain ⟨tree, expanded, found⟩ := Option.bind_eq_some_iff.mp found
    obtain ⟨others, rest, found⟩ := Option.bind_eq_some_iff.mp found
    exact Option.bind_eq_some_iff.mpr ⟨tree, expand_mono expanded,
      Option.bind_eq_some_iff.mpr ⟨others, expandAll_mono rest, found⟩⟩

theorem expandAlternatives_mono : ∀ {types : List TypeExpr} {trees : List Tree},
    expandAlternatives symbols first scope types = some trees →
      expandAlternatives symbols second scope types = some trees
  | [], _, found => by
    rw [expandAlternatives] at found ⊢
    exact found
  | _ :: _, _, found => by
    rw [expandAlternatives] at found ⊢
    obtain ⟨tree, expanded, found⟩ := Option.bind_eq_some_iff.mp found
    obtain ⟨others, rest, found⟩ := Option.bind_eq_some_iff.mp found
    exact Option.bind_eq_some_iff.mpr ⟨tree, expand_mono expanded,
      Option.bind_eq_some_iff.mpr ⟨others, expandAlternatives_mono rest, found⟩⟩

theorem expandMembers_mono : ∀ {shape : TreeShape} {members : List Member} {result : TreeShape},
    expandMembers symbols first scope shape members = some result →
      expandMembers symbols second scope shape members = some result
  | _, [], _, found => by
    rw [expandMembers] at found ⊢
    exact found
  | _, .property _ _ _ :: _, _, found => by
    rw [expandMembers] at found ⊢
    obtain ⟨tree, expanded, found⟩ := Option.bind_eq_some_iff.mp found
    exact Option.bind_eq_some_iff.mpr ⟨tree, expand_mono expanded, expandMembers_mono found⟩
  | _, .index _ _ :: _, _, found => by
    rw [expandMembers] at found ⊢
    obtain ⟨key, expanded, found⟩ := Option.bind_eq_some_iff.mp found
    obtain ⟨value, other, found⟩ := Option.bind_eq_some_iff.mp found
    exact Option.bind_eq_some_iff.mpr ⟨key, expand_mono expanded,
      Option.bind_eq_some_iff.mpr ⟨value, expand_mono other, expandMembers_mono found⟩⟩

end

theorem expandBases_mono {shape result : TreeShape} {bases : List TypeExpr}
    (found : expandBases symbols first scope shape bases = some result) :
    expandBases symbols second scope shape bases = some result := by
  induction bases generalizing shape with
  | nil => exact found
  | cons base rest ih =>
    rw [expandBases] at found ⊢
    obtain ⟨tree, expanded, found⟩ := Option.bind_eq_some_iff.mp found
    exact Option.bind_eq_some_iff.mpr ⟨tree, expand_mono below scope expanded, ih found⟩

theorem expandBody_mono {body : Body} {tree : Tree}
    (found : expandBody symbols first scope body = some tree) :
    expandBody symbols second scope body = some tree := by
  cases body with
  | typeAlias type => exact expand_mono below scope found
  | interface bases members =>
    rw [expandBody] at found ⊢
    obtain ⟨inherited, expanded, found⟩ := Option.bind_eq_some_iff.mp found
    obtain ⟨own, other, found⟩ := Option.bind_eq_some_iff.mp found
    exact Option.bind_eq_some_iff.mpr ⟨inherited, expandBases_mono below scope expanded,
      Option.bind_eq_some_iff.mpr ⟨own, expandMembers_mono below scope other, found⟩⟩

theorem expandParameters_mono {parameters : List Parameter} {arguments : List Tree}
    {result : TreeScope}
    (found : expandParameters symbols first scope parameters arguments = some result) :
    expandParameters symbols second scope parameters arguments = some result := by
  induction parameters generalizing scope arguments with
  | nil => exact found
  | cons parameter rest ih =>
    cases arguments with
    | cons argument others => exact ih _ found
    | nil =>
      rw [expandParameters] at found ⊢
      cases given : parameter.fallback with
      | none =>
        rw [given] at found
        exact ih _ found
      | some fallback =>
        rw [given] at found
        obtain ⟨argument, expanded, found⟩ := Option.bind_eq_some_iff.mp found
        exact Option.bind_eq_some_iff.mpr ⟨argument, expand_mono below scope expanded, ih _ found⟩

end Types

theorem expandInstance_mono {name : String} {trees : List Tree} {tree : Tree}
    (found : expandInstance symbols first name trees = some tree) :
    expandInstance symbols second name trees = some tree := by
  rw [expandInstance] at found ⊢
  cases declares : symbols.type? name with
  | none => rwa [declares] at found
  | some definition =>
    rw [declares] at found
    obtain ⟨scope, bound, found⟩ := Option.bind_eq_some_iff.mp found
    exact Option.bind_eq_some_iff.mpr ⟨scope, expandParameters_mono below [] bound,
      expandBody_mono below scope found⟩

theorem expandValue_mono {name : String} {tree : Tree}
    (found : expandValue symbols first name = some tree) :
    expandValue symbols second name = some tree := by
  rw [expandValue] at found ⊢
  cases declares : symbols.value? name with
  | none => rwa [declares] at found
  | some type =>
    rw [declares] at found
    exact expand_mono below [] found

end Below

/-- **Larger bounds give no other structures.** -/
theorem Expansion.within_mono (symbols : Symbols) {values more chain longer : Nat}
    (wider : values ≤ more) (deeper : chain ≤ longer) :
    (within symbols values chain).Below (within symbols more longer) := by
  induction values generalizing more chain longer with
  | zero =>
    induction chain generalizing longer with
    | zero => exact ⟨fun _ _ _ found => by simp at found, fun _ _ found => by simp at found⟩
    | succ chain ih =>
      obtain ⟨longer, rfl⟩ : ∃ other, longer = other + 1 := ⟨longer - 1, by omega⟩
      refine ⟨fun name trees tree found => ?_, fun _ _ found => by simp at found⟩
      rw [instantiate_within_succ] at found ⊢
      exact expandInstance_mono (ih (by omega)) found
  | succ values ih =>
    obtain ⟨more, rfl⟩ : ∃ other, more = other + 1 := ⟨more - 1, by omega⟩
    have named : ∀ {chain longer : Nat}, chain ≤ longer → ∀ name tree,
        (within symbols (values + 1) chain).valueType name = some tree →
          (within symbols (more + 1) longer).valueType name = some tree := by
      intro chain longer deeper name tree found
      rw [valueType_within_succ] at found ⊢
      exact expandValue_mono (ih (by omega) deeper) found
    induction chain generalizing longer with
    | zero => exact ⟨fun _ _ _ found => by simp at found, named deeper⟩
    | succ chain inner =>
      obtain ⟨longer, rfl⟩ : ∃ other, longer = other + 1 := ⟨longer - 1, by omega⟩
      refine ⟨fun name trees tree found => ?_, named deeper⟩
      rw [instantiate_within_succ] at found ⊢
      exact expandInstance_mono (inner (by omega)) found

/-- Two bounds that give a type a structure give it the same. -/
theorem Expansion.instantiate_unique {symbols : Symbols} {values more chain longer : Nat}
    {name : String} {trees : List Tree} {tree other : Tree}
    (found : (within symbols values chain).instantiate name trees = some tree)
    (found' : (within symbols more longer).instantiate name trees = some other) : tree = other := by
  have left := (within_mono symbols (Nat.le_max_left values more) (Nat.le_max_left chain longer))
    |>.instantiate name trees tree found
  have right := (within_mono symbols (Nat.le_max_right values more) (Nat.le_max_right chain longer))
    |>.instantiate name trees other found'
  exact Option.some.inj (left.symm.trans right)

theorem Expansion.valueType_unique {symbols : Symbols} {values more chain longer : Nat}
    {name : String} {tree other : Tree}
    (found : (within symbols values chain).valueType name = some tree)
    (found' : (within symbols more longer).valueType name = some other) : tree = other := by
  have left := (within_mono symbols (Nat.le_max_left values more) (Nat.le_max_left chain longer))
    |>.valueType name tree found
  have right := (within_mono symbols (Nat.le_max_right values more) (Nat.le_max_right chain longer))
    |>.valueType name other found'
  exact Option.some.inj (left.symm.trans right)

/-- What is asked of a longer chain is answered as by a shorter one. -/
theorem expandExport_mono {symbols : Symbols} {chain longer : Nat} (deeper : chain ≤ longer)
    {name : String} {tree : Tree} (found : expandExport symbols chain name = some tree) :
    expandExport symbols longer name = some tree := by
  obtain ⟨localName, exported, found⟩ := Option.bind_eq_some_iff.mp found
  exact Option.bind_eq_some_iff.mpr ⟨localName, exported,
    (Expansion.within_mono symbols (Nat.le_refl _) deeper).valueType localName tree found⟩

end SwiftBindings.TypeGraph
