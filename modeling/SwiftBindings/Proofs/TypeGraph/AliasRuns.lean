/-
**A type and its alias.**

The run of a value whose type is an alias resolves the alias's target within the alias, in lockstep with
the run of a value whose type is the target, started within one declared type. So it ends in a graph that
has the types of that run at new places, and one type more: the alias, with the structure of the target and
its own name as its text (`Aliasing.Declares.aliases`).
-/

import SwiftBindings.Proofs.TypeGraph.LockstepRuns

namespace SwiftBindings.TypeGraph

open Declared

/-- The second graph has the types of the first at new places, and an alias of one of them. -/
structure Graph.Aliases (graph other : Graph) (target : TypeId) (name : String) : Prop where
  renames : graph.Renames moved other
  kind : graph.SameUnder moved other target aliasPlace
  text : other.text aliasPlace = name

/-- Only the nodes of the graphs matter. -/
theorem Graph.Aliases.of_nodes {graph graph' other other' : Graph} {target : TypeId} {name : String}
    (aliases : graph.Aliases other target name) (same : graph'.nodes = graph.nodes)
    (same' : other'.nodes = other.nodes) : graph'.Aliases other' target name := by
  have kinds : graph'.kind = graph.kind := by
    funext id
    rw [Graph.kind, Graph.kind, same]
  have kinds' : other'.kind = other.kind := by
    funext id
    rw [Graph.kind, Graph.kind, same']
  have texts : graph'.text = graph.text := by
    funext id
    rw [Graph.text, Graph.text, same]
  have texts' : other'.text = other.text := by
    funext id
    rw [Graph.text, Graph.text, same']
  refine ⟨⟨aliases.renames.method, fun id => ?_, fun id => ?_⟩, ?_, ?_⟩
  · rw [Graph.SameUnder, kinds, kinds']
    exact aliases.renames.kind id
  · rw [texts, texts']
    exact aliases.renames.text id
  · rw [Graph.SameUnder, kinds, kinds']
    exact aliases.kind
  · rw [texts']
    exact aliases.text

/-- An alias that is left has the structure of its target. -/
theorem Aliasing.InStep.aliases {aliasing : Aliasing} {depth : Nat} {within : List String}
    {graph other : Graph} (inStep : aliasing.InStep depth within graph other) {target : TypeId}
    (settled : graph.kind target ≠ .pending) :
    graph.Aliases
      (leaveInstance aliasPlace (other.aliasKind aliasPlace (moved target)) other).2 target
      aliasing.name where
  renames :=
    { method := rfl
      kind := fun id => by
        rw [Graph.SameUnder, leaveInstance_kind_of_ne (moved_ne_aliasPlace id)]
        exact inStep.renames.kind id
      text := fun id => by
        rw [Graph.text, leaveInstance_node_of_ne (moved_ne_aliasPlace id)]
        exact inStep.renames.text id }
  kind := by
    have same := inStep.renames.kind target
    have settled' : other.kind (moved target) ≠ .pending := by
      rw [same]
      exact fun pending => settled ((Kind.rename_eq_pending_iff moved).mp pending)
    rw [Graph.SameUnder, (leaveInstance_hasKind ⟨_, inStep.own⟩).kind_eq, Graph.aliasKind,
      if_neg (moved_ne_aliasPlace target), if_neg settled']
    exact same
  text := by
    rw [leaveInstance_eq, Graph.text]
    dsimp only
    rw [Array.getElem?_modify, if_pos rfl, inStep.own]
    rfl

/-- The alias stands for the type, and the two values have the type and the alias as their types. -/
structure Aliasing.Declares (aliasing : Aliasing) (type : TypeExpr) : Prop where
  fresh : aliasing.Fresh
  free : aliasing.own.Disjoint (mentions [] type)
  target : aliasing.symbols.type? aliasing.name = some ⟨[], .typeAlias type⟩
  direct : aliasing.symbols.value? aliasing.direct = some type
  named : aliasing.symbols.value? aliasing.named = some (.reference aliasing.name [])

/-! ### Where the runs start -/

/-- The graph of a run within a number of declared types and the given values. -/
def Graph.startedAt (depth : Nat) (resolving : List String) : Graph :=
  { Graph.initial with depth, resolving }

/-- The graph of a run that has entered the alias. -/
def Graph.startedIn (aliasing : Aliasing) : Graph :=
  (enterInstance ⟨aliasing.name, []⟩ (.startedAt 0 [aliasing.named])).2

theorem Aliasing.inStep_start (aliasing : Aliasing) :
    aliasing.InStep 1 [] (.startedAt 1 [aliasing.direct]) (.startedIn aliasing) where
  occupied := Nat.one_pos
  size := rfl
  nodes id := by
    cases id with
    | zero => rfl
    | succ id => rfl
  own := rfl
  keywords := rfl
  literals := rfl
  instances := rfl
  values := rfl
  level := rfl
  level' := rfl
  resolving := rfl
  resolving' := rfl

/-- Within a declared type and a value there is less room than levels. -/
theorem Symbols.roomAt_one_lt {symbols : Symbols} {name : String} {type : TypeExpr}
    (declares : symbols.value? name = some type) :
    symbols.roomAt 1 ([] ++ [name]) < maximalDepth + symbols.values.length := by
  have whole := symbols.room_lt_levels .initial
  have entered : symbols.roomAt 1 [] < symbols.room .initial := by
    have shallow : Graph.initial.depth < maximalDepth := by decide
    exact symbols.room_enter ⟨name, []⟩ shallow
  have asked : symbols.roomAt 1 ([] ++ [name]) < symbols.roomAt 1 [] := by
    have free : name ∉ (Graph.startedAt 1 []).resolving := List.not_mem_nil
    exact Symbols.room_resolving declares free
  rw [Symbols.levels] at whole
  omega

section Runs

variable {aliasing : Aliasing} {type : TypeExpr} (declares : aliasing.Declares type)

/-- The type within the alias, and the graph after it is resolved. -/
def Aliasing.resolvedWithin (aliasing : Aliasing) (type : TypeExpr) : TypeId × Graph :=
  resolve aliasing.symbols
    (.ofLevels aliasing.symbols (maximalDepth + aliasing.symbols.values.length)) [] type
    (.startedIn aliasing)

include declares

/-- The run of the value whose type is written out. -/
theorem Aliasing.Declares.valueType_direct (depth : Nat) :
    let resolved := resolve aliasing.symbols
      (.ofLevels aliasing.symbols (maximalDepth + aliasing.symbols.values.length + 1)) [] type
      (.startedAt depth [aliasing.direct])
    valueType aliasing.symbols aliasing.direct (.startedAt depth []) =
      (resolved.1, resolved.2.leaveValue aliasing.direct resolved.1) := by
  have free : (Graph.startedAt depth []).values.lookup aliasing.direct = none := rfl
  have outside : aliasing.direct ∉ (Graph.startedAt depth []).resolving := List.not_mem_nil
  show valueTypeWith aliasing.symbols _ aliasing.direct (.startedAt depth []) = _
  rw [valueTypeWith_declared free declares.direct, if_neg outside]
  rfl

/-- The alias gets the structure of the type that was resolved within it. -/
theorem Aliasing.Declares.instantiateWith_alias :
    let resolved := aliasing.resolvedWithin type
    instantiateWith aliasing.symbols
        (.ofLevels aliasing.symbols (maximalDepth + aliasing.symbols.values.length)) aliasing.name []
        (.startedAt 0 [aliasing.named]) =
      (aliasPlace,
        (leaveInstance aliasPlace (resolved.2.aliasKind aliasPlace resolved.1) resolved.2).2) := by
  have free : (Graph.startedAt 0 [aliasing.named]).instances.lookup ⟨aliasing.name, []⟩ = none := rfl
  have shallow : ¬(Graph.startedAt 0 [aliasing.named]).depth ≥ maximalDepth :=
    Nat.not_le.mpr (Nat.succ_pos 63)
  rw [instantiateWith_declared free declares.target, if_neg shallow]
  rfl

/-- The run of the value whose type is the alias. -/
theorem Aliasing.Declares.valueType_named :
    let resolved := aliasing.resolvedWithin type
    valueType aliasing.symbols aliasing.named (.startedAt 0 []) =
      (aliasPlace, (leaveInstance aliasPlace (resolved.2.aliasKind aliasPlace resolved.1)
        resolved.2).2.leaveValue aliasing.named aliasPlace) := by
  intro resolved
  have referred : resolve aliasing.symbols
      (.ofLevels aliasing.symbols (maximalDepth + aliasing.symbols.values.length + 1)) []
      (.reference aliasing.name []) (.startedAt 0 [aliasing.named]) = (aliasPlace,
        (leaveInstance aliasPlace (resolved.2.aliasKind aliasPlace resolved.1) resolved.2).2) := by
    rw [← declares.instantiateWith_alias, resolve]
    show namedType aliasing.symbols _ aliasing.name [] _ = _
    rw [namedType, declares.target, if_pos Option.isSome_some]
    rfl
  have free : (Graph.startedAt 0 []).values.lookup aliasing.named = none := rfl
  have outside : aliasing.named ∉ (Graph.startedAt 0 []).resolving := List.not_mem_nil
  show valueTypeWith aliasing.symbols _ aliasing.named (.startedAt 0 []) = _
  rw [valueTypeWith_declared free declares.named, if_neg outside]
  exact congrArg (fun result : TypeId × Graph => (result.1, result.2.leaveValue aliasing.named result.1))
    referred

/-- **A type and its alias.** The run of the value whose type is the alias ends in the graph of the
other run, started within one declared type, with an alias put in. -/
theorem Aliasing.Declares.aliases :
    let plain := valueType aliasing.symbols aliasing.direct (.startedAt 1 [])
    let aliased := valueType aliasing.symbols aliasing.named (.startedAt 0 [])
    plain.2.kind plain.1 ≠ .pending →
      aliased.1 = aliasPlace ∧ plain.2.Aliases aliased.2 plain.1 aliasing.name := by
  intro plain aliased settled
  have further : Deeper.Alike aliasing 1 [] _ _ :=
    Deeper.alike_ofLevels declares.fresh
      (Nat.lt_succ_of_lt (Symbols.roomAt_one_lt declares.direct))
      (Symbols.roomAt_one_lt declares.named)
  have both : aliasing.Alike 1 [] moved (resolve aliasing.symbols _ [] type)
      (resolve aliasing.symbols _ [] type) := alike_resolve further (List.nil_subset _) type declares.free
  obtain ⟨inStep, places⟩ := both _ _ aliasing.inStep_start
  have direct : plain = _ := declares.valueType_direct 1
  have named : aliased = _ := declares.valueType_named
  rw [direct] at settled ⊢
  rw [named]
  have aliases := inStep.aliases settled
  rw [← places] at aliases
  exact ⟨rfl, aliases.of_nodes rfl rfl⟩

end Runs

/-! ### Room for the alias -/

/-- A value's type is resolved to the same types where one more declared type is being resolved:
nothing in it is nested so deeply that it would become opaque. -/
structure Symbols.HasDepthLeft (symbols : Symbols) (name : String) : Prop where
  place : (valueType symbols name (.startedAt 1 [])).1 = (valueType symbols name .initial).1
  nodes : (valueType symbols name (.startedAt 1 [])).2.nodes =
    (valueType symbols name .initial).2.nodes

/-- **A type and its alias in graphs of their own**, where there is room for the alias. -/
theorem Aliasing.Declares.aliases_initial {aliasing : Aliasing} {type : TypeExpr}
    (declares : aliasing.Declares type) (left : aliasing.symbols.HasDepthLeft aliasing.direct) :
    let plain := valueType aliasing.symbols aliasing.direct .initial
    let aliased := valueType aliasing.symbols aliasing.named .initial
    plain.2.kind plain.1 ≠ .pending →
      aliased.1 = aliasPlace ∧ plain.2.Aliases aliased.2 plain.1 aliasing.name := by
  intro plain aliased settled
  have kinds : (valueType aliasing.symbols aliasing.direct (.startedAt 1 [])).2.kind plain.1 =
      plain.2.kind plain.1 := by
    rw [Graph.kind, Graph.kind, left.nodes]
  obtain ⟨place, aliases⟩ := declares.aliases (by rw [left.place, kinds]; exact settled)
  rw [left.place] at aliases
  exact ⟨place, aliases.of_nodes left.nodes.symm rfl⟩

end SwiftBindings.TypeGraph
