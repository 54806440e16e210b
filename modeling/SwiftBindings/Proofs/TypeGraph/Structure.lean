/-
**The structure that a type has in a graph.**

`Graph.HasTree` says that a type of a graph, with all its parts, is finished and has the given structure.
It stays so in whatever comes after (`Graph.HasTree.keep`), a type has one structure at most
(`Graph.HasTree.unique`), and it is what the type unfolds to (`Graph.HasTree.unfold`).

What is seen of a type is then seen of its structure: its alternatives, its properties
(`branches_shown`), the type of further properties, its keys, and what lies along a path.
-/

import SwiftBindings.Proofs.Related
import SwiftBindings.Proofs.TypeGraph.Substitution

namespace SwiftBindings.TypeGraph

open Declared

/-! ### One level -/

/-- The property is the branch, where its type has the branch's structure. -/
structure Property.Shows (shows : TypeId → Tree → Prop) (property : Property) (branch : Branch) :
    Prop where
  name : property.name = branch.1
  optional : property.optional = branch.2.1
  type : shows property.type branch.2.2

/-- The shape has the properties and the index of the other. -/
structure ObjectShape.Shows (shows : TypeId → Tree → Prop) (shape : ObjectShape) (tree : TreeShape) :
    Prop where
  properties : List.Forall₂ (Property.Shows shows) shape.properties tree.branches
  index : Option.Rel shows shape.index tree.index

/-- The structure of a node is the tree, where its parts have the structures of the tree's parts. -/
inductive Kind.Shows (shows : TypeId → Tree → Prop) : Kind → Tree → Prop where
  | primitive (keyword : Keyword) : Kind.Shows shows (.primitive keyword) (.primitive keyword)
  | stringLiteral (value : String) : Kind.Shows shows (.stringLiteral value) (.stringLiteral value)
  | numberLiteral (text : String) : Kind.Shows shows (.numberLiteral text) (.numberLiteral text)
  | booleanLiteral (value : Bool) : Kind.Shows shows (.booleanLiteral value) (.booleanLiteral value)
  | array {id : TypeId} {tree : Tree} (element : shows id tree) :
    Kind.Shows shows (.array id) (.array tree)
  | tuple {ids : List TypeId} {trees : List Tree} (elements : List.Forall₂ shows ids trees) :
    Kind.Shows shows (.tuple ids) (.tuple trees)
  | union {ids : List TypeId} {trees : List Tree} (members : List.Forall₂ shows ids trees) :
    Kind.Shows shows (.union ids) (.union trees)
  | intersection {ids : List TypeId} {trees : List Tree} (parts : List.Forall₂ shows ids trees) :
    Kind.Shows shows (.intersection ids) (.intersection trees)
  | object {shape : ObjectShape} {branches : List Branch} {index : Option Tree}
    (members : shape.Shows shows ⟨branches, index⟩) :
    Kind.Shows shows (.object shape) (.object branches index)
  | unresolved : Kind.Shows shows .unresolved .unresolved
  | opaqueType : Kind.Shows shows .opaqueType .opaqueType

section Levels

variable {shows other : TypeId → Tree → Prop}

section Mono

variable (implies : ∀ id tree, shows id tree → other id tree)

include implies

theorem Property.Shows.mono {property : Property} {branch : Branch}
    (shown : property.Shows shows branch) : property.Shows other branch :=
  ⟨shown.name, shown.optional, implies _ _ shown.type⟩

theorem ObjectShape.Shows.mono {shape : ObjectShape} {tree : TreeShape}
    (shown : shape.Shows shows tree) : shape.Shows other tree :=
  ⟨shown.properties.imp fun _ _ => Property.Shows.mono implies, rel_imp implies shown.index⟩

theorem Kind.Shows.mono {kind : Kind} {tree : Tree} (shown : kind.Shows shows tree) :
    kind.Shows other tree := by
  cases shown with
  | primitive keyword => exact .primitive keyword
  | stringLiteral value => exact .stringLiteral value
  | numberLiteral text => exact .numberLiteral text
  | booleanLiteral value => exact .booleanLiteral value
  | array element => exact .array (implies _ _ element)
  | tuple elements => exact .tuple (elements.imp implies)
  | union members => exact .union (members.imp implies)
  | intersection parts => exact .intersection (parts.imp implies)
  | object members => exact .object (members.mono implies)
  | unresolved => exact .unresolved
  | opaqueType => exact .opaqueType

end Mono

theorem Kind.Shows.ne_pending {kind : Kind} {tree : Tree} (shown : kind.Shows shows tree) :
    kind ≠ .pending := by
  rintro rfl
  cases shown

/-! ### Bounds -/

/-- What is related within a growing bound is related within a common one. -/
theorem forall₂_bounded {α β : Type} {relate : Nat → α → β → Prop}
    (mono : ∀ bound more, bound ≤ more → ∀ left right, relate bound left right → relate more left right)
    {lefts : List α} {rights : List β}
    (related : List.Forall₂ (fun left right => ∃ bound, relate bound left right) lefts rights) :
    ∃ bound, List.Forall₂ (relate bound) lefts rights := by
  induction related with
  | nil => exact ⟨0, .nil⟩
  | cons head _ ih =>
    obtain ⟨first, head⟩ := head
    obtain ⟨second, tail⟩ := ih
    exact ⟨max first second, .cons (mono _ _ (Nat.le_max_left _ _) _ _ head)
      (tail.imp (mono _ _ (Nat.le_max_right _ _)))⟩

/-- A structure whose parts are shown within bounds has them shown within a common one. -/
theorem Kind.Shows.bounded {shows : Nat → TypeId → Tree → Prop}
    (mono : ∀ bound more, bound ≤ more → ∀ id tree, shows bound id tree → shows more id tree)
    {kind : Kind} {tree : Tree}
    (shown : kind.Shows (fun id tree => ∃ bound, shows bound id tree) tree) :
    ∃ bound, kind.Shows (shows bound) tree := by
  cases shown with
  | primitive keyword => exact ⟨0, .primitive keyword⟩
  | stringLiteral value => exact ⟨0, .stringLiteral value⟩
  | numberLiteral text => exact ⟨0, .numberLiteral text⟩
  | booleanLiteral value => exact ⟨0, .booleanLiteral value⟩
  | array element =>
    obtain ⟨bound, element⟩ := element
    exact ⟨bound, .array element⟩
  | tuple elements =>
    obtain ⟨bound, elements⟩ := forall₂_bounded mono elements
    exact ⟨bound, .tuple elements⟩
  | union members =>
    obtain ⟨bound, members⟩ := forall₂_bounded mono members
    exact ⟨bound, .union members⟩
  | intersection parts =>
    obtain ⟨bound, parts⟩ := forall₂_bounded mono parts
    exact ⟨bound, .intersection parts⟩
  | object members =>
    rename_i shape branches index
    have each : ∀ (property : Property) (branch : Branch),
        property.Shows (fun id tree => ∃ bound, shows bound id tree) branch →
          ∃ bound, property.Shows (shows bound) branch := by
      rintro property branch ⟨name, optional, bound, type⟩
      exact ⟨bound, name, optional, type⟩
    have wider : ∀ bound more, bound ≤ more → ∀ (property : Property) (branch : Branch),
        property.Shows (shows bound) branch → property.Shows (shows more) branch :=
      fun bound more le _ _ shown => shown.mono (mono bound more le)
    obtain ⟨first, properties⟩ := forall₂_bounded wider (members.properties.imp each)
    have index : ∃ second, Option.Rel (shows second) shape.index index := by
      have shown := members.index
      revert shown
      generalize shape.index = held
      rintro (⟨bound, shown⟩ | _)
      · exact ⟨bound, .some shown⟩
      · exact ⟨0, .none⟩
    obtain ⟨second, index⟩ := index
    refine ⟨max first second, .object ⟨properties.imp (wider _ _ (Nat.le_max_left _ _)), ?_⟩⟩
    exact rel_imp (mono _ _ (Nat.le_max_right _ _)) index
  | unresolved => exact ⟨0, .unresolved⟩
  | opaqueType => exact ⟨0, .opaqueType⟩

end Levels

/-! ### All levels -/

/-- The type and its parts are finished and have the structure, through less than the given number of
levels. -/
def Graph.ShowsWithin (graph : Graph) : Nat → TypeId → Tree → Prop
  | 0, _, _ => False
  | levels + 1, id, tree => ∃ kind, graph.HasKind id kind ∧ kind.Shows (graph.ShowsWithin levels) tree

/-- The type and its parts are finished and have the structure. -/
def Graph.HasTree (graph : Graph) (id : TypeId) (tree : Tree) : Prop :=
  ∃ levels, graph.ShowsWithin levels id tree

section Shows

variable {graph : Graph} {id : TypeId} {tree : Tree}

theorem Graph.ShowsWithin.mono {levels more : Nat} (wider : levels ≤ more)
    (shown : graph.ShowsWithin levels id tree) : graph.ShowsWithin more id tree := by
  induction levels generalizing more id tree with
  | zero => cases shown
  | succ levels ih =>
    obtain ⟨more, rfl⟩ : ∃ other, more = other + 1 := ⟨more - 1, by omega⟩
    obtain ⟨kind, has, parts⟩ := shown
    exact ⟨kind, has, parts.mono fun _ _ part => ih (by omega) part⟩

/-- A type has a structure exactly where its node has it, with the structures of its parts. -/
theorem Graph.shows_iff :
    graph.HasTree id tree ↔ ∃ kind, graph.HasKind id kind ∧ kind.Shows graph.HasTree tree := by
  constructor
  · rintro ⟨levels | levels, shown⟩
    · cases shown
    · obtain ⟨kind, has, parts⟩ := shown
      exact ⟨kind, has, parts.mono fun _ _ part => ⟨levels, part⟩⟩
  · rintro ⟨kind, has, parts⟩
    obtain ⟨levels, parts⟩ := parts.bounded fun _ _ wider _ _ part => part.mono wider
    exact ⟨levels + 1, kind, has, parts⟩

theorem Graph.HasTree.of_kind {kind : Kind} (has : graph.HasKind id kind)
    (parts : kind.Shows graph.HasTree tree) : graph.HasTree id tree :=
  Graph.shows_iff.mpr ⟨kind, has, parts⟩

theorem Graph.HasTree.kind (shown : graph.HasTree id tree) :
    (graph.kind id).Shows graph.HasTree tree := by
  obtain ⟨kind, has, parts⟩ := Graph.shows_iff.mp shown
  rwa [has.kind_eq]

theorem Graph.HasTree.hasKind (shown : graph.HasTree id tree) : graph.HasKind id (graph.kind id) := by
  obtain ⟨kind, has, _⟩ := Graph.shows_iff.mp shown
  rwa [has.kind_eq]

/-- **A type keeps its structure.** -/
theorem Graph.HasTree.keep {later : Graph} (continues : graph.Continues later)
    (shown : graph.HasTree id tree) : later.HasTree id tree := by
  obtain ⟨levels, shown⟩ := shown
  refine ⟨levels, ?_⟩
  induction levels generalizing id tree with
  | zero => cases shown
  | succ levels ih =>
    obtain ⟨kind, has, parts⟩ := shown
    exact ⟨kind, continues.hasKind has parts.ne_pending, parts.mono fun _ _ part => ih part⟩

theorem forall₂_unique {α β : Type} {first second : α → β → Prop}
    (unique : ∀ left right other, first left right → second left other → right = other)
    {lefts : List α} {rights others : List β} (related : List.Forall₂ first lefts rights)
    (related' : List.Forall₂ second lefts others) : rights = others := by
  induction related generalizing others with
  | nil => exact (List.forall₂_nil_left_iff.mp related').symm
  | cons head _ ih =>
    cases related' with
    | cons head' tail' => rw [unique _ _ _ head head', ih tail']

/-- **A type has one structure at most.** -/
theorem Graph.HasTree.unique {other : Tree} (shown : graph.HasTree id tree)
    (shown' : graph.HasTree id other) : tree = other := by
  obtain ⟨levels, shown⟩ := shown
  induction levels generalizing id tree other with
  | zero => cases shown
  | succ levels ih =>
    have same : ∀ id tree other, graph.ShowsWithin levels id tree → graph.HasTree id other →
        tree = other := fun _ _ _ part part' => ih part' part
    obtain ⟨kind, has, parts⟩ := shown
    obtain ⟨kind', has', parts'⟩ := Graph.shows_iff.mp shown'
    obtain rfl : kind = kind' := has.kind_eq.symm.trans has'.kind_eq
    cases parts with
    | array element =>
      cases parts' with
      | array element' => rw [same _ _ _ element element']
    | tuple elements =>
      cases parts' with
      | tuple elements' => rw [forall₂_unique same elements elements']
    | union members =>
      cases parts' with
      | union members' => rw [forall₂_unique same members members']
    | intersection parts =>
      cases parts' with
      | intersection parts' => rw [forall₂_unique same parts parts']
    | object members =>
      cases parts' with
      | object members' =>
        have branches := forall₂_unique (fun property branch other
            (shown : property.Shows (graph.ShowsWithin levels) branch)
            (shown' : property.Shows graph.HasTree other) =>
          Prod.ext (shown.name.symm.trans shown'.name)
            (Prod.ext (shown.optional.symm.trans shown'.optional) (same _ _ _ shown.type shown'.type)))
          members.properties members'.properties
        have index := members.index
        have index' := members'.index
        dsimp only at branches index index'
        revert index index'
        generalize ObjectShape.index _ = held
        rintro (first | _) (second | _)
        · rw [branches, same _ _ _ first second]
        · rw [branches]
    | _ =>
      cases parts'
      rfl

theorem forall₂_unique_shows {ids : List TypeId} {trees others : List Tree}
    (shown : List.Forall₂ graph.HasTree ids trees) (shown' : List.Forall₂ graph.HasTree ids others) :
    trees = others :=
  forall₂_unique (fun _ _ _ first second => first.unique second) shown shown'

theorem map_eq_of_forall₂_right {α β : Type} {relate : α → β → Prop} {image : α → β}
    (same : ∀ left right, relate left right → image left = right) {lefts : List α} {rights : List β}
    (related : List.Forall₂ relate lefts rights) : lefts.map image = rights := by
  induction related with
  | nil => rfl
  | cons head _ ih => rw [List.map_cons, same _ _ head, ih]

/-- **A type unfolds to its structure**, from some depth on. -/
theorem Graph.HasTree.unfold (shown : graph.HasTree id tree) :
    ∃ enough, ∀ depth ≥ enough, graph.unfold depth id = tree := by
  obtain ⟨levels, shown⟩ := shown
  refine ⟨levels, ?_⟩
  induction levels generalizing id tree with
  | zero => cases shown
  | succ levels ih =>
    intro depth enough
    obtain ⟨depth, rfl⟩ : ∃ less, depth = less + 1 := ⟨depth - 1, by omega⟩
    have same : ∀ id tree, graph.ShowsWithin levels id tree → graph.unfold depth id = tree :=
      fun _ _ part => ih part depth (by omega)
    obtain ⟨kind, has, parts⟩ := shown
    rw [Graph.unfold, has.kind_eq]
    cases parts with
    | array element => exact congrArg Tree.array (same _ _ element)
    | tuple elements => exact congrArg Tree.tuple (map_eq_of_forall₂_right same elements)
    | union members => exact congrArg Tree.union (map_eq_of_forall₂_right same members)
    | intersection parts => exact congrArg Tree.intersection (map_eq_of_forall₂_right same parts)
    | object members =>
      have branches := map_eq_of_forall₂_right (fun (property : Property) (branch : Branch)
          (shown : property.Shows (graph.ShowsWithin levels) branch) =>
        show (property.name, property.optional, graph.unfold depth property.type) = branch from
          Prod.ext shown.name (Prod.ext shown.optional (same _ _ shown.type))) members.properties
      dsimp only
      rw [branches]
      have index := members.index
      dsimp only at index
      revert index
      generalize ObjectShape.index _ = held
      rintro (shown | _)
      · rw [Option.map_some, same _ _ shown]
      · rfl
    | _ => rfl

end Shows

/-! ### What is seen of a type -/

section Seen

variable {graph : Graph} {id : TypeId} {tree : Tree} (shown : graph.HasTree id tree)

include shown

theorem unionMembers?_shown :
    Option.Rel (List.Forall₂ graph.HasTree) (graph.unionMembers? id) tree.unionMembers? := by
  have parts := shown.kind
  rw [Graph.unionMembers?]
  generalize graph.kind id = kind at parts
  cases parts with
  | union members => exact .some members
  | _ => exact .none

theorem alternatives_shown : List.Forall₂ graph.HasTree (graph.alternatives id) tree.alternatives := by
  rw [Graph.alternatives, Tree.alternatives]
  have members := unionMembers?_shown shown
  revert members
  generalize graph.unionMembers? id = left, tree.unionMembers? = right
  rintro (members | _)
  · exact members
  · exact .cons shown .nil

theorem stringValue?_shown : graph.stringValue? id = tree.stringValue? := by
  have parts := shown.kind
  rw [Graph.stringValue?]
  generalize graph.kind id = kind at parts
  cases parts <;> rfl

theorem isKeyword_shown (keyword : Keyword) :
    tree.isKeyword keyword = true ↔ graph.kind id = .primitive keyword := by
  have parts := shown.kind
  generalize graph.kind id = kind at parts
  cases parts with
  | primitive other =>
    rw [Tree.isKeyword, beq_iff_eq]
    exact ⟨congrArg Kind.primitive, Kind.primitive.inj⟩
  | _ => exact ⟨fun same => absurd same Bool.false_ne_true, Kind.noConfusion⟩

theorem isStructured_shown : graph.isStructured id = tree.isStructured := by
  have parts := shown.kind
  rw [Graph.isStructured]
  generalize graph.kind id = kind at parts
  cases parts <;> rfl

/-- A type lists the keys that its structure lists. -/
theorem literalKeys?_shown : graph.literalKeys? id = tree.literalKeys? := by
  have parts := shown.kind
  rw [Graph.literalKeys?]
  generalize graph.kind id = kind at parts
  cases parts with
  | union members =>
    rename_i ids trees
    show ids.mapM graph.stringValue? = trees.mapM Tree.stringValue?
    clear shown
    induction members with
    | nil => rfl
    | cons head _ ih => rw [List.mapM_cons, List.mapM_cons, stringValue?_shown head, ih]
  | _ => rfl

end Seen

/-! ### Properties -/

section Properties

variable {shows : TypeId → Tree → Prop}

theorem any_name_shown {properties : List Property} {branches : List Branch}
    (shown : List.Forall₂ (Property.Shows shows) properties branches) (name : String) :
    (properties.any fun other => other.name == name) = branches.any fun other => other.1 == name := by
  induction shown with
  | nil => rfl
  | cons head _ ih => rw [List.any_cons, List.any_cons, head.name, ih]

theorem mergeProperties_shown {properties others : List Property} {branches more : List Branch}
    (shown : List.Forall₂ (Property.Shows shows) properties branches)
    (shown' : List.Forall₂ (Property.Shows shows) others more) :
    List.Forall₂ (Property.Shows shows) (mergeProperties properties others)
      (mergeBranches branches more) := by
  rw [mergeProperties, mergeBranches]
  induction shown' generalizing properties branches with
  | nil => exact shown
  | cons head _ ih =>
    rw [List.foldl_cons, List.foldl_cons, any_name_shown shown, head.name]
    split
    · exact ih shown
    · exact ih (List.rel_append shown (.cons head .nil))

theorem upsertProperty_shown {properties : List Property} {branches : List Branch}
    {property : Property} {branch : Branch}
    (shown : List.Forall₂ (Property.Shows shows) properties branches)
    (added : property.Shows shows branch) :
    List.Forall₂ (Property.Shows shows) (upsertProperty properties property)
      (upsertBranch branches branch) := by
  induction shown with
  | nil => exact .cons added .nil
  | cons head tail ih =>
    rw [upsertProperty, upsertBranch, head.name, added.name]
    split
    · exact .cons added tail
    · exact .cons head ih

theorem foldl_upsertProperty_shown {properties others : List Property} {branches more : List Branch}
    (shown : List.Forall₂ (Property.Shows shows) properties branches)
    (added : List.Forall₂ (Property.Shows shows) others more) :
    List.Forall₂ (Property.Shows shows) (others.foldl upsertProperty properties)
      (more.foldl upsertBranch branches) := by
  induction added generalizing properties branches with
  | nil => exact shown
  | cons head _ ih => exact ih (upsertProperty_shown shown head)

theorem inherited_shown (method : shows methodType .opaqueType) (names : List String) :
    List.Forall₂ (Property.Shows shows) (inherited names) (inheritedBranches names) := by
  induction names with
  | nil => exact .nil
  | cons name rest ih => exact .cons ⟨rfl, rfl, method⟩ ih

theorem find?_name_shown {properties : List Property} {branches : List Branch}
    (shown : List.Forall₂ (Property.Shows shows) properties branches) (name : String) :
    Option.Rel (Property.Shows shows) (properties.find? fun property => property.name == name)
      (branches.find? fun branch => branch.1 == name) :=
  find?_related shown fun head => by rw [head.name]

end Properties

/-- The type of methods has its structure. -/
def Graph.HasMethod (graph : Graph) : Prop :=
  graph.HasKind methodType .opaqueType

section Walks

variable {graph : Graph} (method : graph.HasMethod)

include method

theorem Graph.HasMethod.shows : graph.HasTree methodType .opaqueType :=
  .of_kind method .opaqueType

theorem branchesWithin_shown (levels : Nat) {id : TypeId} {tree : Tree} (shown : graph.HasTree id tree) :
    List.Forall₂ (Property.Shows graph.HasTree) (graph.propertiesWithin levels id)
      (tree.branchesWithin levels) := by
  induction levels generalizing id tree with
  | zero => exact .nil
  | succ levels ih =>
    have merged : ∀ {ids : List TypeId} {trees : List Tree} {properties : List Property}
        {branches : List Branch}, List.Forall₂ graph.HasTree ids trees →
        List.Forall₂ (Property.Shows graph.HasTree) properties branches →
        List.Forall₂ (Property.Shows graph.HasTree)
          (ids.foldl (fun merged part => mergeProperties merged (graph.propertiesWithin levels part))
            properties)
          (trees.foldl (fun merged part => mergeBranches merged (part.branchesWithin levels))
            branches) := by
      intro ids trees properties branches parts
      induction parts generalizing properties branches with
      | nil => exact fun shown => shown
      | cons head _ rest => exact fun shown => rest (mergeProperties_shown shown (ih head))
    have inherits := inherited_shown (Graph.HasMethod.shows method)
    have parts := shown.kind
    rw [Graph.propertiesWithin]
    generalize graph.kind id = kind at parts
    cases parts with
    | primitive keyword =>
      cases keyword with
      | string => exact inherits stringMembers
      | number => exact inherits numberMembers
      | boolean => exact inherits booleanMembers
      | _ => exact .nil
    | stringLiteral _ => exact inherits stringMembers
    | numberLiteral _ => exact inherits numberMembers
    | booleanLiteral _ => exact inherits booleanMembers
    | intersection parts => exact merged parts .nil
    | object members => exact members.properties
    | _ => exact .nil

/-- **A type has the properties of its structure.** -/
theorem branches_shown {id : TypeId} {tree : Tree} (shown : graph.HasTree id tree) :
    List.Forall₂ (Property.Shows graph.HasTree) (graph.properties id) tree.branches :=
  branchesWithin_shown method _ shown

theorem branch?_shown {id : TypeId} {tree : Tree} (shown : graph.HasTree id tree) (name : String) :
    Option.Rel (Property.Shows graph.HasTree) (graph.property? id name) (tree.branch? name) :=
  find?_name_shown (branches_shown method shown) name

theorem literalBranch?_shown {id : TypeId} {tree : Tree} (shown : graph.HasTree id tree)
    (name : String) : graph.literalProperty? id name = tree.literalBranch? name := by
  rw [Graph.literalProperty?, Tree.literalBranch?]
  have found := branch?_shown method shown name
  revert found
  generalize graph.property? id name = left, tree.branch? name = right
  rintro (held | _)
  · exact stringValue?_shown held.type
  · rfl

theorem isMarkedReference_shown {id : TypeId} {tree : Tree} (shown : graph.HasTree id tree) :
    graph.isMarkedReference id = tree.isMarkedReference := by
  have same : ∀ name, (graph.property? id name).isSome = (tree.branch? name).isSome := by
    intro name
    have found := branch?_shown method shown name
    revert found
    generalize graph.property? id name = left, tree.branch? name = right
    rintro (_ | _) <;> rfl
  rw [Graph.isMarkedReference, Tree.isMarkedReference]
  simp only [same]

theorem follow?_shown {id : TypeId} {tree : Tree} (shown : graph.HasTree id tree) (path : List String) :
    Option.Rel graph.HasTree (graph.follow? id path) (tree.follow? path) := by
  induction path generalizing id tree with
  | nil => exact .some shown
  | cons name rest ih =>
    rw [Graph.follow?, Tree.follow?, List.foldlM_cons, List.foldlM_cons]
    exact rel_bind (rel_map (branch?_shown method shown name) Property.Shows.type) ih

omit method in
theorem indexWithin_shown (levels : Nat) {id : TypeId} {tree : Tree} (shown : graph.HasTree id tree) :
    Option.Rel graph.HasTree (graph.indexWithin levels id) (tree.indexWithin levels) := by
  induction levels generalizing id tree with
  | zero => exact .none
  | succ levels ih =>
    have parts := shown.kind
    rw [Graph.indexWithin]
    generalize graph.kind id = kind at parts
    cases parts with
    | object members => exact members.index
    | intersection parts => exact findSome?_related parts ih
    | _ => exact .none

omit method in
theorem index?_shown {id : TypeId} {tree : Tree} (shown : graph.HasTree id tree) :
    Option.Rel graph.HasTree (graph.index? id) tree.index? :=
  indexWithin_shown _ shown

end Walks

end SwiftBindings.TypeGraph
