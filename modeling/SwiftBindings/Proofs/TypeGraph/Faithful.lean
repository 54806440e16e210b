/-
**What a graph remembers is what its declarations expand to.**

A graph is faithful (`Graph.Faithful`) when each type that it remembers has the structure that
substitution gives it: a keyword or literal itself, a declared type what its declaration expands to
with the structures of its arguments, unless it is still being resolved, and a value what its type
expands to. `Graph.Yields` says of a step what its answer has to do with the graph after it, and that
the step grows the graph and keeps it faithful.

The steps that build types from finished ones yield the structures that substitution has for them.
They look at no declared name, so nothing is asked of bounds (`yields_providedType`).
-/

import SwiftBindings.Proofs.TypeGraph.FollowingTypes
import SwiftBindings.Proofs.TypeGraph.Structure

namespace SwiftBindings.TypeGraph

open Declared

/-! ### Faithful graphs -/

section Faithful

variable (symbols : Symbols)

/-- The declared type has the structure that its declaration expands to. -/
def Graph.ShowsInstance (graph : Graph) (declared : Instance) (id : TypeId) : Prop :=
  ∃ trees tree values chain, List.Forall₂ graph.HasTree declared.arguments trees ∧
    (Expansion.within symbols values chain).instantiate declared.name trees = some tree ∧
      graph.HasTree id tree

/-- The value has a type of the structure that its type expands to. -/
def Graph.ShowsValue (graph : Graph) (name : String) (id : TypeId) : Prop :=
  ∃ tree values chain, (Expansion.within symbols values chain).valueType name = some tree ∧
    graph.HasTree id tree

/-- What the graph remembers has the structure that substitution gives it. -/
structure Graph.Faithful (graph : Graph) : Prop where
  method : graph.HasMethod
  keywords : ∀ keyword id, graph.keywords.lookup keyword = some id →
    graph.HasKind id (.primitive keyword)
  literals : ∀ value id, graph.literals.lookup value = some id →
    graph.HasKind id (.stringLiteral value)
  instances : ∀ declared id, graph.instances.lookup declared = some id →
    graph.kind id = .pending ∨ graph.ShowsInstance symbols declared id
  values : ∀ name id, graph.values.lookup name = some id → graph.ShowsValue symbols name id

theorem Graph.faithful_initial : Graph.initial.Faithful symbols where
  method := ⟨"(method)", rfl⟩
  keywords _ _ found := by cases found
  literals _ _ found := by cases found
  instances _ _ found := by cases found
  values _ _ found := by cases found

variable {symbols}

theorem Graph.ShowsInstance.keep {earlier later : Graph} (continues : earlier.Continues later)
    {declared : Instance} {id : TypeId} (shown : earlier.ShowsInstance symbols declared id) :
    later.ShowsInstance symbols declared id := by
  obtain ⟨trees, tree, values, chain, arguments, expanded, shown⟩ := shown
  exact ⟨trees, tree, values, chain, arguments.imp fun _ _ => Graph.HasTree.keep continues, expanded,
    shown.keep continues⟩

theorem Graph.ShowsValue.keep {earlier later : Graph} (continues : earlier.Continues later)
    {name : String} {id : TypeId} (shown : earlier.ShowsValue symbols name id) :
    later.ShowsValue symbols name id := by
  obtain ⟨tree, values, chain, expanded, shown⟩ := shown
  exact ⟨tree, values, chain, expanded, shown.keep continues⟩

/-- A graph that is continued stays faithful, if what it remembers further is as it should be and no
unfinished type is finished otherwise. -/
theorem Graph.Faithful.later {earlier later : Graph} (faithful : earlier.Faithful symbols)
    (continues : earlier.Continues later)
    (keywords : ∀ keyword id, later.keywords.lookup keyword = some id →
      earlier.keywords.lookup keyword = some id ∨ later.HasKind id (.primitive keyword))
    (literals : ∀ value id, later.literals.lookup value = some id →
      earlier.literals.lookup value = some id ∨ later.HasKind id (.stringLiteral value))
    (instances : ∀ declared id, later.instances.lookup declared = some id →
      (earlier.instances.lookup declared = some id ∧
        (earlier.kind id = .pending → later.kind id = .pending)) ∨
          (later.kind id = .pending ∨ later.ShowsInstance symbols declared id))
    (values : ∀ name id, later.values.lookup name = some id →
      earlier.values.lookup name = some id ∨ later.ShowsValue symbols name id) :
    later.Faithful symbols where
  method := continues.hasKind faithful.method Kind.noConfusion
  keywords keyword id found := by
    rcases keywords keyword id found with held | has
    · exact continues.hasKind (faithful.keywords keyword id held) Kind.noConfusion
    · exact has
  literals value id found := by
    rcases literals value id found with held | has
    · exact continues.hasKind (faithful.literals value id held) Kind.noConfusion
    · exact has
  instances declared id found := by
    rcases instances declared id found with ⟨held, unfinished⟩ | shown
    · exact (faithful.instances declared id held).imp unfinished (Graph.ShowsInstance.keep continues)
    · exact shown
  values name id found := by
    rcases values name id found with held | shown
    · exact (faithful.values name id held).keep continues
    · exact shown

/-- A graph that is grown without remembering more stays faithful. -/
theorem Graph.Faithful.grow {earlier later : Graph} (faithful : earlier.Faithful symbols)
    (grows : earlier.GrowsTo later) (keywords : later.keywords = earlier.keywords)
    (literals : later.literals = earlier.literals) (instances : later.instances = earlier.instances)
    (values : later.values = earlier.values) : later.Faithful symbols :=
  faithful.later grows.continues (fun _ _ found => .inl (keywords ▸ found))
    (fun _ _ found => .inl (literals ▸ found))
    (fun _ _ found => .inl ⟨instances ▸ found, grows.unfinished⟩)
    (fun _ _ found => .inl (values ▸ found))

end Faithful

/-! ### Steps -/

/-- A step grows the graph and keeps it faithful, and its answer is as it should be. -/
structure Graph.Yields (symbols : Symbols) (graph : Graph) {α : Type} (relate : Graph → α → Prop)
    (result : α × Graph) : Prop where
  grows : graph.GrowsTo result.2
  faithful : result.2.Faithful symbols
  shows : relate result.2 result.1

/-- The step yields a type of the structure. -/
abbrev Graph.YieldsTree (symbols : Symbols) (graph : Graph) (tree : Tree) (result : TypeId × Graph) :
    Prop :=
  graph.Yields symbols (fun after id => after.HasTree id tree) result

section Steps

variable {symbols : Symbols} {graph : Graph}

/-- A step behind another one. -/
theorem Graph.Yields.after {α : Type} {relate : Graph → α → Prop} {between : Graph} {result : α × Graph}
    (grows : graph.GrowsTo between) (yields : between.Yields symbols relate result) :
    graph.Yields symbols relate result :=
  ⟨grows.trans yields.grows, yields.faithful, yields.shows⟩

/-- A type that is there already. -/
theorem Graph.Faithful.yields (faithful : graph.Faithful symbols) {id : TypeId} {tree : Tree}
    (shown : graph.HasTree id tree) : graph.YieldsTree symbols tree (id, graph) :=
  ⟨.refl graph, faithful, shown⟩

/-- A new node, whose parts have the structures of the tree's parts. -/
theorem yields_allocate (faithful : graph.Faithful symbols) {kind : Kind} {tree : Tree}
    (parts : kind.Shows graph.HasTree tree) (text : String) :
    graph.YieldsTree symbols tree (allocate kind text graph) := by
  have grows := allocate_grows parts.ne_pending text graph
  refine ⟨grows, faithful.grow grows rfl rfl rfl rfl, ?_⟩
  exact .of_kind (allocate_hasKind kind text graph)
    (parts.mono fun _ _ => Graph.HasTree.keep grows.continues)

theorem yields_keywordType (faithful : graph.Faithful symbols) (keyword : Keyword) :
    graph.YieldsTree symbols (.primitive keyword) (keywordType keyword graph) := by
  cases found : graph.keywords.lookup keyword with
  | some id =>
    rw [keywordType_of_some found]
    exact faithful.yields (.of_kind (faithful.keywords keyword id found) (.primitive keyword))
  | none =>
    rw [keywordType_of_none found]
    have has := allocate_hasKind (.primitive keyword) keyword.text graph
    have grows := keyword_grows found
    refine ⟨grows, faithful.later grows.continues ?_ (fun _ _ held => .inl held)
      (fun _ _ held => .inl ⟨held, grows.unfinished⟩) (fun _ _ held => .inl held),
      .of_kind has (.primitive keyword)⟩
    intro other id held
    rcases lookup_cons_cases held with ⟨rfl, rfl⟩ | before
    · exact .inr has
    · exact .inl before

theorem yields_stringLiteralType (faithful : graph.Faithful symbols) (value : String) :
    graph.YieldsTree symbols (.stringLiteral value) (stringLiteralType value graph) := by
  cases found : graph.literals.lookup value with
  | some id =>
    rw [stringLiteralType_of_some found]
    exact faithful.yields (.of_kind (faithful.literals value id found) (.stringLiteral value))
  | none =>
    rw [stringLiteralType_of_none found]
    have has := allocate_hasKind (.stringLiteral value) (literalText value) graph
    have grows := literal_grows found
    refine ⟨grows, faithful.later grows.continues (fun _ _ held => .inl held) ?_
      (fun _ _ held => .inl ⟨held, grows.unfinished⟩) (fun _ _ held => .inl held),
      .of_kind has (.stringLiteral value)⟩
    intro other id held
    rcases lookup_cons_cases held with ⟨rfl, rfl⟩ | before
    · exact .inr has
    · exact .inl before

/-! ### Types of the framework -/

theorem yields_recordType (faithful : graph.Faithful symbols) {key value : TypeId}
    {keyTree valueTree : Tree} (keyShown : graph.HasTree key keyTree)
    (valueShown : graph.HasTree value valueTree) :
    graph.YieldsTree symbols (recordTree keyTree valueTree) (recordType key value graph) := by
  refine yields_allocate faithful ?_ _
  rw [recordTree, ← literalKeys?_shown keyShown]
  cases graph.literalKeys? key with
  | none => exact .object ⟨.nil, .some valueShown⟩
  | some names =>
    refine .object ⟨?_, .none⟩
    induction names with
    | nil => exact .nil
    | cons name rest ih => exact .cons ⟨rfl, rfl, valueShown⟩ ih

theorem PresenceChange.apply_shown {shows : TypeId → Tree → Prop} (change : PresenceChange)
    {property : Property} {branch : Branch} (shown : property.Shows shows branch) :
    (change.apply property).Shows shows (change.applyBranch branch) where
  name := shown.name
  optional := by
    cases change with
    | unchanged => exact shown.optional
    | partially => rfl
    | required => rfl
  type := shown.type

theorem yields_presenceType (faithful : graph.Faithful symbols) (spelled : String)
    (change : PresenceChange) {target : TypeId} {tree : Tree} (shown : graph.HasTree target tree) :
    graph.YieldsTree symbols (presenceTree change tree) (presenceType spelled change target graph) := by
  have properties := branches_shown faithful.method shown
  have index := index?_shown shown
  show graph.YieldsTree symbols _ ((if _ then _ else _ : Building TypeId) graph)
  rw [presenceTree, ← isEmpty_eq_of_forall₂ properties, ← isNone_eq_of_rel index]
  split
  · exact yields_allocate faithful .unresolved _
  · refine yields_allocate faithful (.object ⟨?_, index⟩) _
    exact List.forall₂_map_left_iff.mpr (List.forall₂_map_right_iff.mpr
      (properties.imp fun _ _ => change.apply_shown))

theorem yields_objectType (faithful : graph.Faithful symbols) {properties : List Property}
    {index : Option TypeId} {branches : List Branch} {indexTree : Option Tree}
    (shown : List.Forall₂ (Property.Shows graph.HasTree) properties branches)
    (indexShown : Option.Rel graph.HasTree index indexTree) :
    graph.YieldsTree symbols (.object branches indexTree) (objectType ⟨properties, index⟩ graph) :=
  yields_allocate faithful (.object ⟨shown, indexShown⟩) _

theorem yields_unionType (faithful : graph.Faithful symbols) {ids : List TypeId} {trees : List Tree}
    (shown : List.Forall₂ graph.HasTree ids trees) :
    graph.YieldsTree symbols (.union trees) (unionType ids graph) :=
  yields_allocate faithful (.union shown) _

/-- The alternatives other than null and undefined. -/
theorem presentMembers_shown {ids : List TypeId} {trees : List Tree}
    (shown : List.Forall₂ graph.HasTree ids trees) :
    List.Forall₂ graph.HasTree
      (ids.filter fun member =>
        graph.kind member != .primitive .null && graph.kind member != .primitive .undefined)
      (trees.filter fun member => !member.isKeyword .null && !member.isKeyword .undefined) := by
  refine List.rel_filter (fun id tree shown => ?_) shown
  dsimp only
  rw [Bool.and_eq_true, Bool.and_eq_true, bne_iff_ne, bne_iff_ne, Bool.not_eq_true', Bool.not_eq_true',
    ← Bool.not_eq_true, ← Bool.not_eq_true, isKeyword_shown shown, isKeyword_shown shown]

theorem yields_nonNullableType (faithful : graph.Faithful symbols) {target : TypeId} {tree : Tree}
    (shown : graph.HasTree target tree) :
    graph.YieldsTree symbols (nonNullableTree tree) (nonNullableType target graph) := by
  have members := unionMembers?_shown shown
  rw [nonNullableType, get_bind_apply, nonNullableTree]
  revert members
  generalize graph.unionMembers? target = left, tree.unionMembers? = right
  rintro (members | _)
  · dsimp only
    have kept := presentMembers_shown members
    revert kept
    generalize List.filter _ _ = ids, List.filter _ _ = trees
    intro kept
    cases kept with
    | nil => exact yields_unionType faithful .nil
    | cons first others =>
      cases others with
      | nil => exact faithful.yields first
      | cons second rest => exact yields_unionType faithful (.cons first (.cons second rest))
  · exact faithful.yields shown

/-! ### Filters -/

/-- Keeping properties keeps those that the structure keeps, each with what is kept of it. -/
theorem yields_keepProperties {keep : TypeId → Building (Option TypeId)} {keepTree : Tree → Option Tree}
    (keeps : ∀ {graph : Graph} {id : TypeId} {tree : Tree}, graph.Faithful symbols →
      graph.HasTree id tree →
        graph.Yields symbols (fun after kept => Option.Rel after.HasTree kept (keepTree tree))
          (keep id graph))
    {properties : List Property} {branches : List Branch} (faithful : graph.Faithful symbols)
    (shown : List.Forall₂ (Property.Shows graph.HasTree) properties branches) :
    graph.Yields symbols (fun after kept =>
      List.Forall₂ (Property.Shows after.HasTree) kept (keepBranches keepTree branches))
      (keepProperties keep properties graph) := by
  induction properties generalizing branches graph with
  | nil =>
    cases shown
    exact ⟨.refl graph, faithful, .nil⟩
  | cons property rest ih =>
    obtain ⟨branch, others, head, tail, rfl⟩ := List.forall₂_cons_left_iff.mp shown
    have first := keeps faithful head.type
    have later := ih first.faithful
      (tail.imp fun _ _ => Property.Shows.mono fun _ _ => Graph.HasTree.keep first.grows.continues)
    have kept := first.shows
    rw [keepProperties, bind_apply, keepBranches, List.filterMap_cons]
    revert kept
    generalize (keep property.type graph).1 = held, keepTree branch.2.2 = tree
    rintro (shown | _)
    · refine .after first.grows ⟨later.grows, later.faithful, .cons ?_ later.shows⟩
      exact ⟨head.name, head.optional, shown.keep later.grows.continues⟩
    · exact .after first.grows later

theorem yields_filterWithin (wanted : Option String) (levels : Nat) {id : TypeId} {tree : Tree}
    (faithful : graph.Faithful symbols) (shown : graph.HasTree id tree) :
    graph.Yields symbols
      (fun after kept => Option.Rel after.HasTree kept (filterTree wanted levels tree))
      (filterWithin wanted levels id graph) := by
  induction levels generalizing graph id tree with
  | zero => exact ⟨.refl graph, faithful, .none⟩
  | succ levels ih =>
    rw [filterWithin, get_bind_apply, filterTree, ← isMarkedReference_shown faithful.method shown,
      ← isStructured_shown shown]
    split
    · cases wanted with
      | none => exact ⟨.refl graph, faithful, .some shown⟩
      | some visibility =>
        refine ⟨.refl graph, faithful, ?_⟩
        show Option.Rel graph.HasTree (if _ then _ else _)
          (if (tree.literalBranch? "_visibility" == some visibility) = true then _ else _)
        rw [← literalBranch?_shown faithful.method shown]
        by_cases same : graph.literalProperty? id "_visibility" = some visibility
        · rw [if_pos same, if_pos (beq_iff_eq.mpr same)]
          exact .some shown
        · rw [if_neg same, if_neg (mt beq_iff_eq.mp same)]
          exact .none
    · split
      · exact ⟨.refl graph, faithful, .none⟩
      · have kept : graph.Yields symbols (fun after kept =>
            List.Forall₂ (Property.Shows after.HasTree) kept
              (keepBranches (filterTree wanted levels) tree.branches))
            (keepProperties (filterWithin wanted levels) (graph.properties id) graph) :=
          yields_keepProperties ih faithful (branches_shown faithful.method shown)
        dsimp only
        rw [← isEmpty_eq_of_forall₂ kept.shows]
        rw [bind_apply]
        split
        · exact ⟨kept.grows, kept.faithful, .none⟩
        · have added := yields_objectType kept.faithful kept.shows .none
          exact .after kept.grows ⟨added.grows, added.faithful, .some added.shows⟩

theorem yields_filteredType (faithful : graph.Faithful symbols) {api filter : TypeId}
    {apiTree filterBy : Tree} (apiShown : graph.HasTree api apiTree)
    (filterShown : graph.HasTree filter filterBy) :
    graph.YieldsTree symbols (filteredTree apiTree filterBy) (filteredType api filter graph) := by
  rw [filteredType, get_bind_apply, filteredTree, ← isStructured_shown apiShown,
    ← literalBranch?_shown faithful.method filterShown]
  split
  · have found := yields_filterWithin (graph.literalProperty? filter "_visibility") (walkDepth + 1)
      faithful apiShown
    have kept := found.shows
    rw [bind_apply]
    revert kept
    generalize (filterWithin _ _ api graph).1 = left, filterTree _ _ apiTree = right
    rintro (shown | _)
    · exact .after found.grows (found.faithful.yields shown)
    · exact .after found.grows (yields_allocate found.faithful (.object ⟨.nil, .none⟩) _)
  · exact yields_allocate faithful .unresolved _

/-- **A name that no file declares yields the structure that it has by substitution.** -/
theorem yields_providedType (faithful : graph.Faithful symbols) (name : String) {arguments : List TypeId}
    {trees : List Tree} (shown : List.Forall₂ graph.HasTree arguments trees) :
    graph.YieldsTree symbols (providedTree name trees) (providedType name arguments graph) := by
  have unresolved : ∀ text, graph.YieldsTree symbols .unresolved (unresolvedType text graph) :=
    yields_allocate faithful .unresolved
  match arguments, trees, shown with
  | [], [], _ =>
    rw [providedType_other name (by decide) (by decide)]
    exact unresolved _
  | [target], [tree], shown =>
    have targetShown := (List.forall₂_cons.mp shown).1
    rw [providedType_single, providedTree]
    split
    · exact yields_allocate faithful (.array targetShown) _
    · split
      · exact yields_nonNullableType faithful targetShown
      · cases PresenceChange.ofName? name with
        | some change => exact yields_presenceType faithful name change targetShown
        | none => exact unresolved _
  | [first, second], [tree, other], shown =>
    have firstShown := (List.forall₂_cons.mp shown).1
    have secondShown := (List.forall₂_cons.mp (List.forall₂_cons.mp shown).2).1
    rw [providedType_pair, providedTree]
    split
    · exact yields_recordType faithful firstShown secondShown
    · split
      · exact yields_filteredType faithful firstShown secondShown
      · exact unresolved _
  | first :: second :: third :: rest, tree :: other :: another :: others, _ =>
    rw [providedType_other name (by simp) (by simp)]
    exact unresolved _

end Steps

end SwiftBindings.TypeGraph
