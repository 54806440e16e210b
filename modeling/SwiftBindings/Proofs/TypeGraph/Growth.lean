/-
**Growth of graphs.**

Resolution only adds to a graph. Two orders say so:

* `Graph.Continues` — between any two graphs of a run: a node whose structure is known stays as it
  is, and what was remembered stays remembered.
* `Graph.GrowsTo` — between the graphs before and after a step that has come to its end: all nodes
  stay as they are, those of unfinished types too, no further type is left unfinished, and the step is
  as deep in declared types and values as it was when it started.

Every level further in uses up a declared type or a value, of which there are only so many
(`Symbols.room`), so the levels that resolution starts with are never exhausted.
-/

import Mathlib.Data.List.Basic
import SwiftBindings.TypeGraph.Resolution

namespace SwiftBindings.TypeGraph

/-! ### Lists of what is remembered -/

/-- What the first list has under a key, the second has too. -/
def Retains {κ ι : Type} [BEq κ] (earlier later : List (κ × ι)) : Prop :=
  ∀ key value, earlier.lookup key = some value → later.lookup key = some value

section Retains

variable {κ ι : Type} [BEq κ]

theorem Retains.refl (entries : List (κ × ι)) : Retains entries entries :=
  fun _ _ found => found

theorem Retains.trans {first second third : List (κ × ι)} (before : Retains first second)
    (after : Retains second third) : Retains first third :=
  fun key value found => after key value (before key value found)

/-- An entry in front under a key that has none takes nothing away. -/
theorem Retains.cons [LawfulBEq κ] {entries : List (κ × ι)} {key : κ} (value : ι)
    (free : entries.lookup key = none) : Retains entries ((key, value) :: entries) := by
  intro other held found
  have different : (other == key) = false := by
    cases same : other == key with
    | false => rfl
    | true =>
      rw [beq_iff_eq.mp same, free] at found
      cases found
  rw [List.lookup_cons, different]
  exact found

theorem lookup_cons_of_ne [LawfulBEq κ] {entries : List (κ × ι)} {key other : κ} (value : ι)
    (different : other ≠ key) : ((key, value) :: entries).lookup other = entries.lookup other := by
  rw [List.lookup_cons, beq_false_of_ne different]

/-- What is found behind an entry is the entry's value, or was found before. -/
theorem lookup_cons_cases [LawfulBEq κ] {entries : List (κ × ι)} {key other : κ} {value held : ι}
    (found : ((key, value) :: entries).lookup other = some held) :
    (other = key ∧ held = value) ∨ entries.lookup other = some held := by
  by_cases same : other = key
  · rw [same, List.lookup_cons_self] at found
    exact .inl ⟨same, (Option.some.inj found).symm⟩
  · rw [lookup_cons_of_ne _ same] at found
    exact .inr found

end Retains

/-! ### Nodes -/

theorem Graph.text_of_getElem? {graph : Graph} {id : TypeId} {node : Node}
    (found : graph.nodes[id]? = some node) : graph.text id = node.text := by
  rw [Graph.text, found]
  rfl

theorem Graph.kind_of_getElem? {graph : Graph} {id : TypeId} {node : Node}
    (found : graph.nodes[id]? = some node) : graph.kind id = node.kind := by
  rw [Graph.kind, found]
  rfl

/-- The type at a place has the structure. -/
def Graph.HasKind (graph : Graph) (id : TypeId) (kind : Kind) : Prop :=
  ∃ text, graph.nodes[id]? = some ⟨kind, text⟩

theorem Graph.HasKind.kind_eq {graph : Graph} {id : TypeId} {kind : Kind}
    (has : graph.HasKind id kind) : graph.kind id = kind := by
  obtain ⟨text, found⟩ := has
  exact Graph.kind_of_getElem? found

theorem Graph.HasKind.lt_size {graph : Graph} {id : TypeId} {kind : Kind}
    (has : graph.HasKind id kind) : id < graph.nodes.size := by
  obtain ⟨text, found⟩ := has
  exact (Array.getElem?_eq_some_iff.mp found).1

/-- Only a place with a node can be of a type that is still being resolved. -/
theorem Graph.hasKind_pending {graph : Graph} {id : TypeId} (pending : graph.kind id = .pending) :
    graph.HasKind id .pending := by
  rw [Graph.kind] at pending
  cases found : graph.nodes[id]? with
  | none =>
    rw [found] at pending
    cases pending
  | some node =>
    rw [found] at pending
    obtain ⟨kind, text⟩ := node
    cases pending
    exact ⟨text, found⟩

theorem Graph.kind_eq_union {graph : Graph} {id : TypeId} {members : List TypeId}
    (found : graph.unionMembers? id = some members) : graph.kind id = .union members := by
  rw [Graph.unionMembers?] at found
  split at found
  · rename_i kind
    rw [kind, Option.some.inj found]
  · cases found

/-- The structure of the type at a place is known. -/
def Graph.isKnown (graph : Graph) (id : TypeId) : Bool :=
  graph.nodes[id]?.any fun node => node.kind != .pending

theorem Graph.isKnown_iff {graph : Graph} {id : TypeId} :
    graph.isKnown id = true ↔ graph.HasKind id (graph.kind id) ∧ graph.kind id ≠ .pending := by
  rw [Graph.isKnown, Graph.HasKind, Graph.kind]
  cases graph.nodes[id]? with
  | none => simp
  | some node =>
    obtain ⟨kind, text⟩ := node
    simp

/-! ### Any two graphs of a run -/

/-- The second graph comes after the first in a run. -/
structure Graph.Continues (earlier later : Graph) : Prop where
  /-- A node of known structure stays. -/
  nodes : ∀ (id : TypeId) (node : Node), earlier.nodes[id]? = some node → node.kind ≠ .pending →
    later.nodes[id]? = some node
  keywords : Retains earlier.keywords later.keywords
  literals : Retains earlier.literals later.literals
  instances : Retains earlier.instances later.instances
  values : Retains earlier.values later.values

theorem Graph.Continues.trans {first second third : Graph} (before : first.Continues second)
    (after : second.Continues third) : first.Continues third where
  nodes id node found known := after.nodes id node (before.nodes id node found known) known
  keywords := before.keywords.trans after.keywords
  literals := before.literals.trans after.literals
  instances := before.instances.trans after.instances
  values := before.values.trans after.values

theorem Graph.Continues.hasKind {earlier later : Graph} (continues : earlier.Continues later)
    {id : TypeId} {kind : Kind} (has : earlier.HasKind id kind) (known : kind ≠ .pending) :
    later.HasKind id kind := by
  obtain ⟨text, found⟩ := has
  exact ⟨text, continues.nodes id _ found known⟩

/-- What is known of a type does not change. -/
theorem Graph.Continues.kind_eq {earlier later : Graph} (continues : earlier.Continues later)
    {id : TypeId} (known : earlier.isKnown id = true) : later.kind id = earlier.kind id := by
  obtain ⟨has, settled⟩ := Graph.isKnown_iff.mp known
  exact (continues.hasKind has settled).kind_eq

/-! ### Before and after a step -/

/-- The second graph is the first after a step that has come to its end. -/
structure Graph.GrowsTo (earlier later : Graph) : Prop where
  /-- Every node stays. -/
  nodes : ∀ (id : TypeId) (node : Node), earlier.nodes[id]? = some node → later.nodes[id]? = some node
  /-- No further type is left unfinished. -/
  pending : ∀ id, later.kind id = .pending → earlier.kind id = .pending
  keywords : Retains earlier.keywords later.keywords
  literals : Retains earlier.literals later.literals
  instances : Retains earlier.instances later.instances
  values : Retains earlier.values later.values
  /-- A value that is being resolved is not remembered by a step within. -/
  guarded : ∀ name ∈ earlier.resolving, earlier.values.lookup name = none →
    later.values.lookup name = none
  /-- A declared type that was not remembered has a new place. -/
  fresh : ∀ declared id, later.instances.lookup declared = some id →
    earlier.instances.lookup declared = some id ∨ earlier.nodes.size ≤ id
  depth : later.depth = earlier.depth
  resolving : later.resolving = earlier.resolving

theorem Graph.GrowsTo.refl (graph : Graph) : graph.GrowsTo graph where
  nodes _ _ found := found
  pending _ pending := pending
  keywords := .refl _
  literals := .refl _
  instances := .refl _
  values := .refl _
  guarded _ _ free := free
  fresh _ _ found := .inl found
  depth := rfl
  resolving := rfl

/-- Places are never given up. -/
theorem Graph.GrowsTo.size_le {earlier later : Graph} (grows : earlier.GrowsTo later) :
    earlier.nodes.size ≤ later.nodes.size := by
  cases size : earlier.nodes.size with
  | zero => exact Nat.zero_le _
  | succ count =>
    have last : earlier.nodes[count]? = some earlier.nodes[count] :=
      Array.getElem?_eq_getElem (by omega)
    obtain ⟨inside, _⟩ := Array.getElem?_eq_some_iff.mp (grows.nodes count _ last)
    omega

theorem Graph.GrowsTo.trans {first second third : Graph} (before : first.GrowsTo second)
    (after : second.GrowsTo third) : first.GrowsTo third where
  nodes id node found := after.nodes id node (before.nodes id node found)
  pending id pending := before.pending id (after.pending id pending)
  keywords := before.keywords.trans after.keywords
  literals := before.literals.trans after.literals
  instances := before.instances.trans after.instances
  values := before.values.trans after.values
  guarded name inside free :=
    after.guarded name (before.resolving ▸ inside) (before.guarded name inside free)
  fresh declared id found := by
    rcases after.fresh declared id found with held | new
    · exact before.fresh declared id held
    · exact .inr (Nat.le_trans before.size_le new)
  depth := after.depth.trans before.depth
  resolving := after.resolving.trans before.resolving

theorem Graph.GrowsTo.continues {earlier later : Graph} (grows : earlier.GrowsTo later) :
    earlier.Continues later where
  nodes id node found _ := grows.nodes id node found
  keywords := grows.keywords
  literals := grows.literals
  instances := grows.instances
  values := grows.values

theorem Graph.Continues.refl (graph : Graph) : graph.Continues graph :=
  (GrowsTo.refl graph).continues

theorem Graph.GrowsTo.hasKind {earlier later : Graph} (grows : earlier.GrowsTo later) {id : TypeId}
    {kind : Kind} (has : earlier.HasKind id kind) : later.HasKind id kind := by
  obtain ⟨text, found⟩ := has
  exact ⟨text, grows.nodes id _ found⟩

/-- Types that are unfinished before a step are unfinished after it. -/
theorem Graph.GrowsTo.unfinished {earlier later : Graph} (grows : earlier.GrowsTo later)
    {id : TypeId} (pending : earlier.kind id = .pending) : later.kind id = .pending :=
  (grows.hasKind (hasKind_pending pending)).kind_eq

/-! ### Adding a node -/

theorem allocate_hasKind (kind : Kind) (text : String) (graph : Graph) :
    (allocate kind text graph).2.HasKind (allocate kind text graph).1 kind :=
  ⟨text, Array.getElem?_push_size⟩

theorem getElem?_push_of_some {nodes : Array Node} {id : TypeId} {node : Node} (added : Node)
    (found : nodes[id]? = some node) : (nodes.push added)[id]? = some node := by
  obtain ⟨inside, _⟩ := Array.getElem?_eq_some_iff.mp found
  rw [Array.getElem?_push_lt inside, ← Array.getElem?_eq_getElem inside, found]

/-- The structure at a place after a node was added. -/
theorem kind_allocate (kind : Kind) (text : String) (graph : Graph) (id : TypeId) :
    (allocate kind text graph).2.kind id =
      if id = graph.nodes.size then kind else graph.kind id := by
  rw [Graph.kind]
  show ((graph.nodes.push ⟨kind, text⟩)[id]?.map Node.kind).getD .opaqueType = _
  rw [Array.getElem?_push]
  split
  · rfl
  · rfl

theorem allocate_grows {kind : Kind} (known : kind ≠ .pending) (text : String) (graph : Graph) :
    graph.GrowsTo (allocate kind text graph).2 where
  nodes _ _ found := getElem?_push_of_some _ found
  pending id pending := by
    rw [kind_allocate] at pending
    split at pending
    · exact absurd pending known
    · exact pending
  keywords := .refl _
  literals := .refl _
  instances := .refl _
  values := .refl _
  guarded _ _ free := free
  fresh _ _ found := .inl found
  depth := rfl
  resolving := rfl

/-! ### Room for levels -/

/-- How many levels further in a resolution can go at most: the declared types that may still be
entered, and the values that are not being resolved. -/
def Symbols.room (symbols : Symbols) (graph : Graph) : Nat :=
  (maximalDepth - graph.depth) +
    ((symbols.values.map Prod.fst).filter fun name => name ∉ graph.resolving).length

/-- A step that has come to its end leaves as much room as there was. -/
theorem Graph.GrowsTo.room_eq {earlier later : Graph} (grows : earlier.GrowsTo later)
    (symbols : Symbols) : symbols.room later = symbols.room earlier := by
  rw [Symbols.room, Symbols.room, grows.depth, grows.resolving]

/-- There are more levels than a run has room for. -/
theorem Symbols.room_lt_levels (symbols : Symbols) (graph : Graph) :
    symbols.room graph < symbols.levels := by
  have bound := List.length_filter_le (fun name => decide (name ∉ graph.resolving))
    (symbols.values.map Prod.fst)
  rw [List.length_map] at bound
  rw [Symbols.room, Symbols.levels]
  omega

theorem mem_of_lookup_eq_some {κ ι : Type} [BEq κ] [LawfulBEq κ] {entries : List (κ × ι)} {key : κ}
    {value : ι} (found : entries.lookup key = some value) : (key, value) ∈ entries := by
  obtain ⟨before, after, rfl, _⟩ := List.lookup_eq_some_iff.mp found
  exact List.mem_append_right _ List.mem_cons_self

/-- Entering a value takes room. -/
theorem Symbols.room_resolving {symbols : Symbols} {graph : Graph} {name : String}
    {type : Declared.TypeExpr} (declared : symbols.value? name = some type)
    (free : name ∉ graph.resolving) :
    symbols.room { graph with resolving := name :: graph.resolving } < symbols.room graph := by
  have inside : name ∈ symbols.values.map Prod.fst :=
    List.mem_map.mpr ⟨_, mem_of_lookup_eq_some declared, rfl⟩
  have fewer : ((symbols.values.map Prod.fst).filter fun other =>
        other ∉ name :: graph.resolving).length <
      ((symbols.values.map Prod.fst).filter fun other => other ∉ graph.resolving).length := by
    have split : (symbols.values.map Prod.fst).filter
          (fun other => other ∉ name :: graph.resolving) =
        ((symbols.values.map Prod.fst).filter (fun other => other ∉ graph.resolving)).filter
          (fun other => other != name) := by
      rw [List.filter_filter]
      refine List.filter_congr fun other _ => ?_
      simp only [List.mem_cons, not_or, Bool.decide_and, bne, decide_not, beq_eq_decide]
    rw [split]
    have held : name ∈ (symbols.values.map Prod.fst).filter fun other =>
        other ∉ graph.resolving := List.mem_filter.mpr ⟨inside, decide_eq_true free⟩
    exact List.length_filter_lt_length_iff_exists.mpr ⟨name, held, by rw [bne_self_eq_false]; simp⟩
  rw [Symbols.room, Symbols.room]
  exact Nat.add_lt_add_left fewer _

end SwiftBindings.TypeGraph
