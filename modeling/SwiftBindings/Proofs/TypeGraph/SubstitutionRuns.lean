/-
**Resolution computes substitution.**

Where substitution gives a type as written a structure within some bounds, resolution yields a type of
that structure (`yields_resolve`, and for declared names at every level `Deeper.expands_ofLevels`). What
is remembered is taken as it is, since a faithful graph remembers nothing else.

Resolution would go wrong where it meets a declared type that is unfinished, or a value that is being
resolved. It never does: a graph awaits what is being resolved (`Graph.Awaits`), which says that the
bounds that are left give none of it a structure. Each declared name is entered with the least bounds
that do give it one, so within them it cannot be asked for again.
-/

import SwiftBindings.Proofs.TypeGraph.Faithful

set_option linter.unusedSectionVars false

namespace SwiftBindings.TypeGraph

open Declared

/-! ### Within bounds -/

/-- What is being resolved has no structure within the bounds. -/
structure Graph.Awaits (symbols : Symbols) (values chain : Nat) (graph : Graph) : Prop where
  instances : ∀ declared id, graph.instances.lookup declared = some id → graph.kind id = .pending →
    ∃ trees, List.Forall₂ graph.HasTree declared.arguments trees ∧
      (Expansion.within symbols values chain).instantiate declared.name trees = none
  values : ∀ name ∈ graph.resolving, (Expansion.within symbols values chain).valueType name = none

/-- The graph is faithful, and there is room for what the bounds allow. -/
structure Graph.Ready (symbols : Symbols) (levels values chain : Nat) (graph : Graph) : Prop where
  faithful : graph.Faithful symbols
  awaits : graph.Awaits symbols values chain
  shallow : graph.depth + chain ≤ maximalDepth
  room : symbols.room graph < levels

section Bounds

variable {symbols : Symbols} {levels values chain : Nat} {graph later : Graph}

/-- A step leaves no more unfinished than there was. -/
theorem Graph.Awaits.grow (awaits : graph.Awaits symbols values chain) (grows : graph.GrowsTo later) :
    later.Awaits symbols values chain where
  instances declared id found pending := by
    have before := grows.pending id pending
    rcases grows.fresh declared id found with held | new
    · obtain ⟨trees, shown, absent⟩ := awaits.instances declared id held before
      exact ⟨trees, shown.imp fun _ _ => Graph.HasTree.keep grows.continues, absent⟩
    · exact absurd (Graph.hasKind_pending before).lt_size (Nat.not_lt.mpr new)
  values name inside := awaits.values name (grows.resolving ▸ inside)

theorem eq_none_of_imp {α : Type} {first second : Option α}
    (implies : ∀ value, first = some value → second = some value) (absent : second = none) :
    first = none := by
  cases found : first with
  | none => rfl
  | some value => exact absurd ((implies value found).symm.trans absent) (Option.some_ne_none value)

/-- What has no structure within bounds has none within less. -/
theorem Graph.Awaits.narrow {less shorter : Nat} (awaits : graph.Awaits symbols values chain)
    (fewer : less ≤ values) (shallower : shorter ≤ chain) : graph.Awaits symbols less shorter := by
  have below := Expansion.within_mono symbols fewer shallower
  refine ⟨fun declared id found pending => ?_, fun name inside => ?_⟩
  · obtain ⟨trees, shown, absent⟩ := awaits.instances declared id found pending
    exact ⟨trees, shown, eq_none_of_imp (below.instantiate _ _) absent⟩
  · exact eq_none_of_imp (below.valueType name) (awaits.values name inside)

theorem Graph.Ready.after {α : Type} {relate : Graph → α → Prop} {result : α × Graph}
    (ready : graph.Ready symbols levels values chain) (yields : graph.Yields symbols relate result) :
    result.2.Ready symbols levels values chain where
  faithful := yields.faithful
  awaits := ready.awaits.grow yields.grows
  shallow := by
    rw [yields.grows.depth]
    exact ready.shallow
  room := by
    rw [yields.grows.room_eq]
    exact ready.room

end Bounds

/-! ### Scopes -/

/-- Parameters stand for types of the structures that they stand for. -/
def Graph.ShowsScope (graph : Graph) (scope : Scope) (trees : TreeScope) : Prop :=
  List.Forall₂ (fun entry tree => entry.1 = tree.1 ∧ graph.HasTree entry.2 tree.2) scope trees

theorem Graph.ShowsScope.keep {graph later : Graph} (continues : graph.Continues later) {scope : Scope}
    {trees : TreeScope} (shown : graph.ShowsScope scope trees) : later.ShowsScope scope trees :=
  shown.imp fun _ _ entry => ⟨entry.1, entry.2.keep continues⟩

theorem Graph.ShowsScope.lookup {graph : Graph} {scope : Scope} {trees : TreeScope}
    (shown : graph.ShowsScope scope trees) (name : String) :
    Option.Rel graph.HasTree (scope.lookup name) (trees.lookup name) :=
  lookup_related shown name

/-! ### Types as written -/

/-- A member takes the place of that of its name. -/
theorem upserted_shown {shows : TypeId → Tree → Prop} {shape : ObjectShape} {before : TreeShape}
    (shown : shape.Shows shows before) {property : Property} {branch : Branch}
    (added : property.Shows shows branch) :
    ObjectShape.Shows shows { shape with properties := upsertProperty shape.properties property }
      { before with branches := upsertBranch before.branches branch } :=
  ⟨upsertProperty_shown shown.properties added, shown.index⟩

/-- The type of further properties is set under the same keys. -/
theorem indexed_shown {graph : Graph} {shape : ObjectShape} {tree : TreeShape} {key value : TypeId}
    {keyTree valueTree : Tree} (shown : shape.Shows graph.HasTree tree)
    (keyShown : graph.HasTree key keyTree) (valueShown : graph.HasTree value valueTree) :
    (shape.indexed (graph.kind key) value).Shows graph.HasTree (tree.indexed keyTree valueTree) := by
  have same : (keyTree.isKeyword .string || keyTree.isKeyword .number) = true ↔
      graph.kind key = .primitive .string ∨ graph.kind key = .primitive .number := by
    rw [Bool.or_eq_true, isKeyword_shown keyShown, isKeyword_shown keyShown]
  rw [ObjectShape.indexed, TreeShape.indexed]
  by_cases keyed : graph.kind key = .primitive .string ∨ graph.kind key = .primitive .number
  · rw [if_pos keyed, if_pos (same.mpr keyed)]
    exact ⟨shown.properties, .some valueShown⟩
  · rw [if_neg keyed, if_neg (mt same.mp keyed)]
    exact shown

/-- What the bounds give a structure, resolution one level further in yields with it. -/
structure Deeper.Expands (symbols : Symbols) (levels values chain : Nat) (deeper : Deeper) : Prop where
  instantiate : ∀ {graph : Graph} {name : String} {ids : List TypeId} {trees : List Tree} {tree : Tree},
    graph.Ready symbols levels values chain → List.Forall₂ graph.HasTree ids trees →
      (Expansion.within symbols values chain).instantiate name trees = some tree →
        graph.YieldsTree symbols tree (deeper.instantiate name ids graph)
  valueType : ∀ {graph : Graph} {name : String} {tree : Tree},
    graph.Ready symbols levels values chain →
      (Expansion.within symbols values chain).valueType name = some tree →
        graph.YieldsTree symbols tree (deeper.valueType name graph)

section Resolve

variable {symbols : Symbols} {levels values chain : Nat} {deeper : Deeper}
  (further : deeper.Expands symbols levels values chain)

include further

mutual

/-- **A type as written is resolved to one of the structure that it has by substitution.** -/
theorem yields_resolve : ∀ {type : TypeExpr} {graph : Graph} {scope : Scope} {trees : TreeScope}
    {tree : Tree}, graph.Ready symbols levels values chain → graph.ShowsScope scope trees →
    expand symbols (.within symbols values chain) trees type = some tree →
      graph.YieldsTree symbols tree (resolve symbols deeper scope type graph)
  | .keyword keyword, _, _, _, _, ready, _, found => by
    rw [expand] at found
    cases found
    rw [resolve]
    exact yields_keywordType ready.faithful keyword
  | .stringLiteral value, _, _, _, _, ready, _, found => by
    rw [expand] at found
    cases found
    rw [resolve]
    exact yields_stringLiteralType ready.faithful value
  | .numberLiteral text, _, _, _, _, ready, _, found => by
    rw [expand] at found
    cases found
    rw [resolve]
    exact yields_allocate ready.faithful (.numberLiteral text) _
  | .booleanLiteral value, _, _, _, _, ready, _, found => by
    rw [expand] at found
    cases found
    rw [resolve]
    exact yields_allocate ready.faithful (.booleanLiteral value) _
  | .reference name arguments, graph, scope, trees, tree, ready, inScope, found => by
    rw [expand] at found
    rw [resolve]
    have held : Option.Rel graph.HasTree (if arguments.isEmpty then scope.lookup name else none)
        (if arguments.isEmpty then trees.lookup name else none) := by
      split
      · exact inScope.lookup name
      · exact .none
    revert held found
    generalize (if arguments.isEmpty then scope.lookup name else none) = left,
      (if arguments.isEmpty then trees.lookup name else none) = right
    intro found held
    cases held with
    | some shown =>
      cases found
      exact ready.faithful.yields shown
    | none =>
      obtain ⟨expanded, arguments, found⟩ := Option.bind_eq_some_iff.mp found
      have first := yields_resolveAll ready inScope arguments
      dsimp only
      rw [bind_apply, namedType]
      split at found
      · rename_i declared
        rw [if_pos declared]
        exact .after first.grows (further.instantiate (ready.after first) first.shows found)
      · rename_i undeclared
        rw [if_neg undeclared]
        cases found
        exact .after first.grows (yields_providedType first.faithful name first.shows)
  | .array element, _, _, _, _, ready, inScope, found => by
    rw [expand] at found
    obtain ⟨inner, expanded, found⟩ := Option.bind_eq_some_iff.mp found
    cases found
    have first := yields_resolve ready inScope expanded
    rw [resolve, bind_apply]
    exact .after first.grows (yields_allocate first.faithful (.array first.shows) _)
  | .tuple elements, _, _, _, _, ready, inScope, found => by
    rw [expand] at found
    obtain ⟨inner, expanded, found⟩ := Option.bind_eq_some_iff.mp found
    cases found
    have first := yields_resolveAll ready inScope expanded
    rw [resolve, bind_apply]
    exact .after first.grows (yields_allocate first.faithful (.tuple first.shows) _)
  | .union members, _, _, _, _, ready, inScope, found => by
    rw [expand] at found
    obtain ⟨inner, expanded, found⟩ := Option.bind_eq_some_iff.mp found
    cases found
    have first := yields_resolveAlternatives ready inScope expanded
    rw [resolve, bind_apply]
    exact .after first.grows (yields_unionType first.faithful first.shows)
  | .intersection members, _, _, _, _, ready, inScope, found => by
    rw [expand] at found
    obtain ⟨inner, expanded, found⟩ := Option.bind_eq_some_iff.mp found
    cases found
    have first := yields_resolveAll ready inScope expanded
    rw [resolve, bind_apply]
    exact .after first.grows (yields_allocate first.faithful (.intersection first.shows) _)
  | .object members, graph, _, _, _, ready, inScope, found => by
    rw [expand] at found
    obtain ⟨shape, expanded, found⟩ := Option.bind_eq_some_iff.mp found
    cases found
    have empty : (⟨[], none⟩ : ObjectShape).Shows graph.HasTree ⟨[], none⟩ := ⟨.nil, .none⟩
    have first := yields_resolveMembers ready inScope empty expanded
    rw [resolve, bind_apply]
    exact .after first.grows
      (yields_objectType first.faithful first.shows.properties first.shows.index)
  | .query name, _, _, _, _, ready, _, found => by
    rw [expand] at found
    obtain ⟨tree, asked, found⟩ := Option.bind_eq_some_iff.mp found
    cases found
    have first := further.valueType ready asked
    have followed := follow?_shown first.faithful.method first.shows (segments name).tail
    rw [resolve, queriedType, bind_apply, get_bind_apply]
    revert followed
    generalize Graph.follow? _ _ _ = left, Tree.follow? _ _ = right
    rintro (shown | _)
    · exact .after first.grows (first.faithful.yields shown)
    · exact .after first.grows (yields_allocate first.faithful .opaqueType _)
  | .opaqueText text, _, _, _, _, ready, _, found => by
    rw [expand] at found
    cases found
    rw [resolve]
    exact yields_allocate ready.faithful .opaqueType _

theorem yields_resolveAll : ∀ {types : List TypeExpr} {graph : Graph} {scope : Scope}
    {trees : TreeScope} {expanded : List Tree}, graph.Ready symbols levels values chain →
    graph.ShowsScope scope trees →
    expandAll symbols (.within symbols values chain) trees types = some expanded →
      graph.Yields symbols (fun after ids => List.Forall₂ after.HasTree ids expanded)
        (resolveAll symbols deeper scope types graph)
  | [], graph, _, _, _, ready, _, found => by
    rw [expandAll] at found
    cases found
    rw [resolveAll]
    exact ⟨.refl graph, ready.faithful, .nil⟩
  | type :: rest, _, _, _, _, ready, inScope, found => by
    rw [expandAll] at found
    obtain ⟨tree, head, found⟩ := Option.bind_eq_some_iff.mp found
    obtain ⟨others, tail, found⟩ := Option.bind_eq_some_iff.mp found
    cases found
    have first := yields_resolve ready inScope head
    have later := yields_resolveAll (ready.after first) (inScope.keep first.grows.continues) tail
    rw [resolveAll]
    exact .after first.grows
      ⟨later.grows, later.faithful, .cons (first.shows.keep later.grows.continues) later.shows⟩

theorem yields_resolveAlternatives : ∀ {types : List TypeExpr} {graph : Graph} {scope : Scope}
    {trees : TreeScope} {expanded : List Tree}, graph.Ready symbols levels values chain →
    graph.ShowsScope scope trees →
    expandAlternatives symbols (.within symbols values chain) trees types = some expanded →
      graph.Yields symbols (fun after ids => List.Forall₂ after.HasTree ids expanded)
        (resolveAlternatives symbols deeper scope types graph)
  | [], graph, _, _, _, ready, _, found => by
    rw [expandAlternatives] at found
    cases found
    rw [resolveAlternatives]
    exact ⟨.refl graph, ready.faithful, .nil⟩
  | type :: rest, _, _, _, _, ready, inScope, found => by
    rw [expandAlternatives] at found
    obtain ⟨tree, head, found⟩ := Option.bind_eq_some_iff.mp found
    obtain ⟨others, tail, found⟩ := Option.bind_eq_some_iff.mp found
    cases found
    have first := yields_resolve ready inScope head
    have later := yields_resolveAlternatives (ready.after first)
      (inScope.keep first.grows.continues) tail
    have own := (alternatives_shown first.shows).imp fun _ _ => Graph.HasTree.keep later.grows.continues
    rw [resolveAlternatives]
    exact .after first.grows ⟨later.grows, later.faithful, List.rel_append own later.shows⟩

theorem yields_resolveMembers : ∀ {members : List Member} {graph : Graph} {scope : Scope}
    {trees : TreeScope} {shape : ObjectShape} {before expanded : TreeShape},
    graph.Ready symbols levels values chain → graph.ShowsScope scope trees →
    shape.Shows graph.HasTree before →
    expandMembers symbols (.within symbols values chain) trees before members = some expanded →
      graph.Yields symbols (fun after shape => shape.Shows after.HasTree expanded)
        (resolveMembers symbols deeper scope shape members graph)
  | [], graph, _, _, _, _, _, ready, _, shown, found => by
    rw [expandMembers] at found
    cases found
    rw [resolveMembers]
    exact ⟨.refl graph, ready.faithful, shown⟩
  | .property name optional type :: rest, _, _, _, _, _, _, ready, inScope, shown, found => by
    rw [expandMembers] at found
    obtain ⟨tree, head, found⟩ := Option.bind_eq_some_iff.mp found
    have first := yields_resolve ready inScope head
    have kept := shown.mono fun _ _ => Graph.HasTree.keep first.grows.continues
    rw [resolveMembers, bind_apply]
    exact .after first.grows (yields_resolveMembers (ready.after first)
      (inScope.keep first.grows.continues) (upserted_shown kept ⟨rfl, rfl, first.shows⟩) found)
  | .index key value :: rest, _, _, _, _, _, _, ready, inScope, shown, found => by
    rw [expandMembers] at found
    obtain ⟨keyTree, head, found⟩ := Option.bind_eq_some_iff.mp found
    obtain ⟨valueTree, second, found⟩ := Option.bind_eq_some_iff.mp found
    have first := yields_resolve ready inScope head
    have then' := yields_resolve (ready.after first) (inScope.keep first.grows.continues) second
    have grows := first.grows.trans then'.grows
    have kept := shown.mono fun _ _ => Graph.HasTree.keep grows.continues
    have keyShown := first.shows.keep then'.grows.continues
    rw [resolveMembers, bind_apply, bind_apply, get_bind_apply]
    exact .after grows (yields_resolveMembers ((ready.after first).after then')
      (inScope.keep grows.continues) (indexed_shown kept keyShown then'.shows) found)

end

theorem yields_resolveBases {bases : List TypeExpr} {graph : Graph} {scope : Scope} {trees : TreeScope}
    {shape : ObjectShape} {before expanded : TreeShape} (ready : graph.Ready symbols levels values chain)
    (inScope : graph.ShowsScope scope trees) (shown : shape.Shows graph.HasTree before)
    (found : expandBases symbols (.within symbols values chain) trees before bases = some expanded) :
    graph.Yields symbols (fun after shape => shape.Shows after.HasTree expanded)
      (resolveBases symbols deeper scope shape bases graph) := by
  induction bases generalizing graph shape before with
  | nil =>
    cases found
    exact ⟨.refl graph, ready.faithful, shown⟩
  | cons base rest ih =>
    obtain ⟨tree, head, found⟩ := Option.bind_eq_some_iff.mp found
    have first := yields_resolve further ready inScope head
    have kept := shown.mono fun _ _ => Graph.HasTree.keep first.grows.continues
    have properties := branches_shown first.faithful.method first.shows
    rw [resolveBases, bind_apply, get_bind_apply]
    exact .after first.grows (ih (ready.after first) (inScope.keep first.grows.continues)
      ⟨foldl_upsertProperty_shown kept.properties properties,
        rel_or kept.index (index?_shown first.shows)⟩ found)

/-- The structure that a declared type is given is that of its body. -/
theorem yields_bodyKind {body : Body} {graph : Graph} {scope : Scope} {trees : TreeScope} {tree : Tree}
    {id : TypeId} (ready : graph.Ready symbols levels values chain)
    (inScope : graph.ShowsScope scope trees) (unfinished : graph.HasKind id .pending)
    (found : expandBody symbols (.within symbols values chain) trees body = some tree) :
    graph.Yields symbols (fun after kind => kind.Shows after.HasTree tree)
      (bodyKind symbols deeper scope id body graph) := by
  cases body with
  | typeAlias type =>
    have first := yields_resolve further ready inScope found
    have known := first.shows.kind.ne_pending
    have other : (resolve symbols deeper scope type graph).1 ≠ id := by
      intro same
      rw [same, (first.grows.hasKind unfinished).kind_eq] at known
      exact known rfl
    refine ⟨first.grows, first.faithful, ?_⟩
    show (Graph.aliasKind _ id _).Shows _ tree
    rw [Graph.aliasKind, if_neg other, if_neg known]
    exact first.shows.kind
  | interface bases members =>
    have empty : (⟨[], none⟩ : ObjectShape).Shows graph.HasTree ⟨[], none⟩ := ⟨.nil, .none⟩
    obtain ⟨inherited, bases, found⟩ := Option.bind_eq_some_iff.mp found
    obtain ⟨own, members, found⟩ := Option.bind_eq_some_iff.mp found
    cases found
    have first := yields_resolveBases further ready inScope empty bases
    have grows := first.grows
    have second := yields_resolveMembers further (ready.after first) (inScope.keep grows.continues)
      (empty.mono fun _ _ => Graph.HasTree.keep grows.continues) members
    have kept := first.shows.mono fun _ _ => Graph.HasTree.keep second.grows.continues
    exact .after grows ⟨second.grows, second.faithful, .object
      ⟨foldl_upsertProperty_shown kept.properties second.shows.properties,
        rel_or second.shows.index kept.index⟩⟩

theorem yields_bindParameters {parameters : List Parameter} {graph : Graph} {scope : Scope}
    {trees expanded : TreeScope} {ids : List TypeId} {arguments : List Tree}
    (ready : graph.Ready symbols levels values chain) (inScope : graph.ShowsScope scope trees)
    (shown : List.Forall₂ graph.HasTree ids arguments)
    (found : expandParameters symbols (.within symbols values chain) trees parameters arguments =
      some expanded) :
    graph.Yields symbols (fun after scope => after.ShowsScope scope expanded)
      (bindParameters symbols deeper scope parameters ids graph) := by
  induction parameters generalizing graph scope trees ids arguments with
  | nil =>
    cases found
    exact ⟨.refl graph, ready.faithful, inScope⟩
  | cons parameter rest ih =>
    cases shown with
    | cons head tail => exact ih ready (.cons ⟨rfl, head⟩ inScope) tail found
    | nil =>
      rw [expandParameters] at found
      rw [bindParameters]
      cases given : parameter.fallback with
      | none =>
        rw [given] at found
        have first := yields_keywordType ready.faithful .unknown
        have bound : (keywordType .unknown graph).2.ShowsScope
            ((parameter.name, (keywordType .unknown graph).1) :: scope)
            ((parameter.name, .primitive .unknown) :: trees) :=
          .cons ⟨rfl, first.shows⟩ (inScope.keep first.grows.continues)
        exact .after first.grows (ih (ready.after first) bound .nil found)
      | some fallback =>
        rw [given] at found
        obtain ⟨argument, expanded, found⟩ := Option.bind_eq_some_iff.mp found
        have first := yields_resolve further ready inScope expanded
        exact .after first.grows (ih (ready.after first)
          (.cons ⟨rfl, first.shows⟩ (inScope.keep first.grows.continues)) .nil found)

end Resolve

/-! ### Least bounds -/

section Least

variable {symbols : Symbols} {values chain : Nat} {tree : Tree}

/-- Of the chains that give a declared type a structure one is the least. -/
theorem Expansion.exists_least_chain {name : String} {trees : List Tree}
    (found : (within symbols values chain).instantiate name trees = some tree) :
    ∃ least < chain, expandInstance symbols (within symbols values least) name trees = some tree ∧
      (within symbols values least).instantiate name trees = none := by
  induction chain with
  | zero =>
    rw [instantiate_within_zero] at found
    cases found
  | succ chain ih =>
    cases shorter : (within symbols values chain).instantiate name trees with
    | none =>
      rw [instantiate_within_succ] at found
      exact ⟨chain, Nat.lt_succ_self chain, found, shorter⟩
    | some other =>
      rw [instantiate_unique shorter found] at shorter
      obtain ⟨least, below, first, absent⟩ := ih shorter
      exact ⟨least, Nat.lt_succ_of_lt below, first, absent⟩

/-- Of the numbers of values that give a value's type a structure one is the least. -/
theorem Expansion.exists_least_values {name : String}
    (found : (within symbols values chain).valueType name = some tree) :
    ∃ least < values, expandValue symbols (within symbols least chain) name = some tree ∧
      (within symbols least chain).valueType name = none := by
  induction values with
  | zero =>
    rw [valueType_within_zero] at found
    cases found
  | succ values ih =>
    cases fewer : (within symbols values chain).valueType name with
    | none =>
      rw [valueType_within_succ] at found
      exact ⟨values, Nat.lt_succ_self values, found, fewer⟩
    | some other =>
      rw [valueType_unique fewer found] at fewer
      obtain ⟨least, below, first, absent⟩ := ih fewer
      exact ⟨least, Nat.lt_succ_of_lt below, first, absent⟩

end Least

/-! ### Declared types -/

section Instances

variable {symbols : Symbols} {levels values chain : Nat} {graph : Graph}

/-- The places that a faithful graph remembers have nodes. -/
theorem Graph.Faithful.instance_lt (faithful : graph.Faithful symbols) {declared : Instance}
    {id : TypeId} (found : graph.instances.lookup declared = some id) : id < graph.nodes.size := by
  rcases faithful.instances declared id found with pending | ⟨_, _, _, _, _, _, shown⟩
  · exact (Graph.hasKind_pending pending).lt_size
  · exact shown.hasKind.lt_size

theorem Graph.Faithful.enter (faithful : graph.Faithful symbols) (declared : Instance)
    (free : graph.instances.lookup declared = none) :
    (enterInstance declared graph).2.Faithful symbols := by
  refine faithful.later (enterInstance_continues declared free) (fun _ _ found => .inl found)
    (fun _ _ found => .inl found) (fun other id found => ?_) (fun _ _ found => .inl found)
  rcases lookup_enterInstance found with ⟨rfl, rfl⟩ | held
  · exact .inr (.inl (enterInstance_hasKind other).kind_eq)
  · refine .inl ⟨held, fun pending => ?_⟩
    rw [enterInstance_kind, if_neg (Nat.ne_of_lt (faithful.instance_lt held))]
    exact pending

/-- A declared type that is entered is awaited, if the bounds give it no structure. -/
theorem Graph.Awaits.enter (awaits : graph.Awaits symbols values chain)
    (faithful : graph.Faithful symbols) {declared : Instance} {trees : List Tree}
    (free : graph.instances.lookup declared = none)
    (shown : List.Forall₂ graph.HasTree declared.arguments trees)
    (absent : (Expansion.within symbols values chain).instantiate declared.name trees = none) :
    (enterInstance declared graph).2.Awaits symbols values chain where
  instances other id found pending := by
    have continues := enterInstance_continues declared free
    rcases lookup_enterInstance found with ⟨rfl, rfl⟩ | held
    · exact ⟨trees, shown.imp fun _ _ => Graph.HasTree.keep continues, absent⟩
    · rw [enterInstance_kind, if_neg (Nat.ne_of_lt (faithful.instance_lt held))] at pending
      obtain ⟨others, shown', absent'⟩ := awaits.instances other id held pending
      exact ⟨others, shown'.imp fun _ _ => Graph.HasTree.keep continues, absent'⟩
  values := awaits.values

/-- A declared type that is left with the structure that it expands to has that structure from then
on, and the graph stays faithful. -/
theorem InstanceStep.leave_yields {after : Graph} {declared : Instance} {kind : Kind} {trees : List Tree}
    {tree : Tree} (step : InstanceStep graph after declared) (before : graph.Faithful symbols)
    (faithful : after.Faithful symbols) (parts : kind.Shows after.HasTree tree)
    (arguments : List.Forall₂ graph.HasTree declared.arguments trees)
    (expanded : (Expansion.within symbols values chain).instantiate declared.name trees = some tree) :
    graph.YieldsTree symbols tree
      (graph.nodes.size, (leaveInstance graph.nodes.size kind after).2) := by
  have grows := step.leave_grows parts.ne_pending
  have left : after.Continues (leaveInstance graph.nodes.size kind after).2 :=
    leaveInstance_continues step.unfinished
  have result := Graph.HasTree.of_kind (leaveInstance_hasKind step.unfinished)
    (parts.mono fun _ _ => Graph.HasTree.keep left)
  refine ⟨grows, faithful.later left (fun _ _ found => .inl found) (fun _ _ found => .inl found)
    (fun other id found => ?_) (fun _ _ found => .inl found), result⟩
  by_cases same : id = graph.nodes.size
  · subst same
    rcases step.instance_cases found with held | ⟨rfl, _⟩ | new
    · exact absurd (before.instance_lt held) (Nat.lt_irrefl _)
    · exact .inr (.inr ⟨trees, tree, values, chain,
        arguments.imp fun _ _ => Graph.HasTree.keep grows.continues, expanded, result⟩)
    · exact absurd new (Nat.lt_irrefl _)
  · refine .inl ⟨found, fun pending => ?_⟩
    rw [leaveInstance_kind_of_ne same]
    exact pending

/-- **A declared type is resolved to one of the structure that it expands to.** -/
theorem yields_instantiateWith
    (further : ∀ values chain, (Deeper.ofLevels symbols levels).Expands symbols levels values chain)
    {name : String} {ids : List TypeId} {trees : List Tree} {tree : Tree}
    (ready : graph.Ready symbols (levels + 1) values chain)
    (shown : List.Forall₂ graph.HasTree ids trees)
    (found : (Expansion.within symbols values chain).instantiate name trees = some tree) :
    graph.YieldsTree symbols tree
      (instantiateWith symbols (.ofLevels symbols levels) name ids graph) := by
  cases free : graph.instances.lookup ⟨name, ids⟩ with
  | some id =>
    rw [instantiateWith_of_some free]
    rcases ready.faithful.instances _ id free with pending |
      ⟨others, other, more, longer, shown', found', idShown⟩
    · obtain ⟨others, shown', absent⟩ := ready.awaits.instances _ id free pending
      rw [← forall₂_unique_shows shown shown', found] at absent
      cases absent
    · rw [← forall₂_unique_shows shown shown'] at found'
      rw [Expansion.instantiate_unique found found']
      exact ready.faithful.yields idShown
  | none =>
    obtain ⟨least, below, found, absent⟩ := Expansion.exists_least_chain found
    rw [expandInstance] at found
    cases declares : symbols.type? name with
    | none =>
      rw [declares] at found
      cases found
      rw [instantiateWith_undeclared free declares]
      exact yields_allocate ready.faithful .unresolved _
    | some definition =>
      rw [declares] at found
      obtain ⟨scope, expanded, found⟩ := Option.bind_eq_some_iff.mp found
      have shallow : graph.depth < maximalDepth := by
        have := ready.shallow
        omega
      rw [instantiateWith_declared free declares, if_neg (Nat.not_le.mpr shallow)]
      have continues := enterInstance_continues ⟨name, ids⟩ free
      have entered : (enterInstance ⟨name, ids⟩ graph).2.Ready symbols levels values least :=
        { faithful := ready.faithful.enter _ free
          awaits := (ready.awaits.narrow (Nat.le_refl _) (Nat.le_of_lt below)).enter ready.faithful free
            shown absent
          shallow := by
            have := ready.shallow
            show graph.depth + 1 + least ≤ maximalDepth
            omega
          room := Nat.lt_of_lt_of_le (symbols.room_enter _ shallow) (Nat.le_of_lt_succ ready.room) }
      have bound := yields_bindParameters (further values least) entered .nil
        (shown.imp fun _ _ => Graph.HasTree.keep continues) expanded
      have body := yields_bodyKind (further values least) (entered.after bound) bound.shows
        (bound.grows.hasKind (enterInstance_hasKind _)) found
      have step : InstanceStep graph _ ⟨name, ids⟩ := ⟨free, bound.grows.trans body.grows⟩
      refine step.leave_yields ready.faithful body.faithful body.shows shown (?_ :
        (Expansion.within symbols values (least + 1)).instantiate name trees = some tree)
      rw [Expansion.instantiate_within_succ, expandInstance, declares]
      exact Option.bind_eq_some_iff.mpr ⟨scope, expanded, found⟩

end Instances

/-! ### Values -/

section Values

variable {symbols : Symbols} {levels values chain : Nat} {graph : Graph}

/-- A graph in which a value is being resolved is the same otherwise. -/
theorem Graph.continues_resolving (graph : Graph) (name : String) :
    graph.Continues { graph with resolving := name :: graph.resolving } :=
  { Graph.Continues.refl graph with }

theorem Graph.Faithful.enterValue (faithful : graph.Faithful symbols) (name : String) :
    Graph.Faithful symbols { graph with resolving := name :: graph.resolving } :=
  faithful.later (graph.continues_resolving name) (fun _ _ found => .inl found)
    (fun _ _ found => .inl found) (fun _ _ found => .inl ⟨found, id⟩) (fun _ _ found => .inl found)

theorem Graph.Awaits.enterValue (awaits : graph.Awaits symbols values chain) {name : String}
    (absent : (Expansion.within symbols values chain).valueType name = none) :
    Graph.Awaits symbols values chain { graph with resolving := name :: graph.resolving } where
  instances declared id found pending := by
    obtain ⟨trees, shown, absent⟩ := awaits.instances declared id found pending
    exact ⟨trees, shown.imp fun _ _ => Graph.HasTree.keep (graph.continues_resolving name), absent⟩
  values := List.forall_mem_cons.mpr ⟨absent, awaits.values⟩

/-- A graph stays faithful when a value is left with a type of the structure that it should have. -/
theorem Graph.Faithful.leaveValue (faithful : graph.Faithful symbols) {name : String} {id : TypeId}
    (free : graph.values.lookup name = none) (shown : graph.ShowsValue symbols name id) :
    (graph.leaveValue name id).Faithful symbols := by
  have continues := leaveValue_continues id free
  refine faithful.later continues (fun _ _ found => .inl found) (fun _ _ found => .inl found)
    (fun _ _ found => .inl ⟨found, fun pending => pending⟩) fun other place found => ?_
  rcases lookup_cons_cases found with ⟨rfl, rfl⟩ | before
  · exact .inr (shown.keep continues)
  · exact .inl before

/-- Asking for a value grows the graph. -/
theorem valueTypeWith_grows (room : symbols.room graph < levels + 1) (name : String) :
    graph.GrowsTo (valueTypeWith symbols (.ofLevels symbols levels) name graph).2 :=
  ((Deeper.keeps_ofLevels symbols .none (levels + 1)).valueType false name graph room
    (congrFun ((Clear.passes_ofLevels symbols (levels + 1)).valueType name) graph)).grows

/-- **The type of a value is resolved to one of the structure that it expands to.** -/
theorem yields_valueTypeWith
    (further : ∀ values chain, (Deeper.ofLevels symbols levels).Expands symbols levels values chain)
    {name : String} {tree : Tree} (ready : graph.Ready symbols (levels + 1) values chain)
    (found : (Expansion.within symbols values chain).valueType name = some tree) :
    graph.YieldsTree symbols tree (valueTypeWith symbols (.ofLevels symbols levels) name graph) := by
  have grows := valueTypeWith_grows ready.room name
  cases free : graph.values.lookup name with
  | some id =>
    rw [valueTypeWith_of_some free]
    obtain ⟨other, more, longer, found', shown⟩ := ready.faithful.values name id free
    rw [Expansion.valueType_unique found found']
    exact ready.faithful.yields shown
  | none =>
    have outside : name ∉ graph.resolving := by
      intro inside
      rw [ready.awaits.values name inside] at found
      cases found
    obtain ⟨least, below, found, absent⟩ := Expansion.exists_least_values found
    cases declares : symbols.value? name with
    | none =>
      rw [expandValue, declares] at found
      cases found
      rw [valueTypeWith_undeclared free declares]
      exact yields_allocate ready.faithful .unresolved _
    | some type =>
      rw [valueTypeWith_declared free declares, if_neg outside] at grows ⊢
      have entered : Graph.Ready symbols levels least chain
          { graph with resolving := name :: graph.resolving } :=
        { faithful := ready.faithful.enterValue name
          awaits := (ready.awaits.narrow (Nat.le_of_lt below) (Nat.le_refl _)).enterValue absent
          shallow := ready.shallow
          room := Nat.lt_of_lt_of_le (Symbols.room_resolving declares outside)
            (Nat.le_of_lt_succ ready.room) }
      have expanded := found
      rw [expandValue, declares] at expanded
      have resolved := yields_resolve (further least chain) entered .nil expanded
      have still := resolved.grows.guarded name List.mem_cons_self free
      have continues := leaveValue_continues (resolve symbols (.ofLevels symbols levels) [] type
        { graph with resolving := name :: graph.resolving }).1 still
      have value : (resolve symbols (.ofLevels symbols levels) [] type
          { graph with resolving := name :: graph.resolving }).2.ShowsValue symbols name
            (resolve symbols (.ofLevels symbols levels) [] type
              { graph with resolving := name :: graph.resolving }).1 :=
        ⟨tree, least + 1, chain, by rw [Expansion.valueType_within_succ, found], resolved.shows⟩
      exact ⟨grows, resolved.faithful.leaveValue still value, resolved.shows.keep continues⟩

end Values

/-! ### All levels and exports -/

/-- **Resolution computes substitution**, at every level and within any bounds. -/
theorem Deeper.expands_ofLevels (symbols : Symbols) (levels values chain : Nat) :
    (Deeper.ofLevels symbols levels).Expands symbols levels values chain := by
  induction levels generalizing values chain with
  | zero => exact ⟨fun ready => absurd ready.room (Nat.not_lt_zero _),
      fun ready => absurd ready.room (Nat.not_lt_zero _)⟩
  | succ levels ih => exact ⟨yields_instantiateWith ih, yields_valueTypeWith ih⟩

/-- An export of a graph without open ends has the structure that substitution gives it, where no
chain of declared types is too long. -/
theorem yields_exportType? {symbols : Symbols} {graph : Graph} (grows : Graph.initial.GrowsTo graph)
    (faithful : graph.Faithful symbols) {name localName : String}
    (exported : symbols.exportedValue? name = some localName) {tree : Tree}
    (found : expandExport symbols maximalDepth name = some tree) :
    graph.YieldsTree symbols tree (valueType symbols localName graph) := by
  have ready : graph.Ready symbols symbols.levels (symbols.values.length + 1) maximalDepth :=
    { faithful := faithful
      awaits := ⟨fun _ id _ pending => absurd pending (grows.finished id), fun name inside => by
        rw [grows.resolving] at inside
        cases inside⟩
      shallow := by rw [grows.depth]; exact Nat.le_of_eq (Nat.zero_add _)
      room := symbols.room_lt_levels graph }
  rw [expandExport, exported] at found
  exact (Deeper.expands_ofLevels symbols symbols.levels _ _).valueType ready found

/-- **Graphs stay faithful through exports** whose chains of declared types are not too long. -/
theorem graphAfter_faithful {symbols : Symbols} {names : List String} {graph : Graph}
    (grows : Graph.initial.GrowsTo graph) (faithful : graph.Faithful symbols)
    (short : ∀ name ∈ names, (symbols.exportedValue? name).isSome →
      (expandExport symbols maximalDepth name).isSome) :
    Graph.initial.GrowsTo (graphAfter symbols names graph) ∧
      (graphAfter symbols names graph).Faithful symbols := by
  induction names generalizing graph with
  | nil => exact ⟨grows, faithful⟩
  | cons name rest ih =>
    obtain ⟨first, others⟩ := List.forall_mem_cons.mp short
    show Graph.initial.GrowsTo (graphAfter symbols rest (exportType? symbols name graph).2) ∧
      (graphAfter symbols rest (exportType? symbols name graph).2).Faithful symbols
    cases exported : symbols.exportedValue? name with
    | none =>
      rw [exportType?_of_none exported]
      exact ih grows faithful others
    | some localName =>
      obtain ⟨tree, found⟩ := Option.isSome_iff_exists.mp (first (by rw [exported]; rfl))
      have yields := yields_exportType? grows faithful exported found
      rw [exportType?_of_some exported]
      exact ih (grows.trans yields.grows) yields.faithful others

end SwiftBindings.TypeGraph
