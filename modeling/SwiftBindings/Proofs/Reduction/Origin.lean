/-
**Where the texts of types come from.**

Whether a type is an identifier of rows is told by its text, so what can be said about identifiers
rests on where texts come from. `Graph.Origin` lists what matters about it: the text names no
identifier at all, or it is that of a union, of an intersection or of the source, or it is a name with
arguments and the arguments are nodes of the graph (`Graph.RefersTo`).

A graph is traced (`Graph.Traced`) when all its nodes have an origin, all parts of types are nodes, and
what is remembered is under its key with the right text. `Traces` says of a step that it leads from
traced graphs to traced graphs and keeps every node; such steps are composed by `Traces.bind`. The
steps that add nodes, and the types of the framework, are such steps.
-/

import SwiftBindings.Proofs.Reduction.IdentifierText
import SwiftBindings.Proofs.TypeGraph.Parts
import SwiftBindings.Proofs.TypeGraph.Run

namespace SwiftBindings.TypeGraph

open Declared Reduction

/-! ### Growing graphs -/

/-- Every node of the first graph is a node of the second. -/
def Graph.KeepsNodes (earlier later : Graph) : Prop :=
  ∀ (id : TypeId) (node : Node), earlier.nodes[id]? = some node → later.nodes[id]? = some node

theorem lt_size_of_getElem? {graph : Graph} {id : TypeId} {node : Node}
    (found : graph.nodes[id]? = some node) : id < graph.nodes.size :=
  (Array.getElem?_eq_some_iff.mp found).1

theorem exists_node {graph : Graph} {id : TypeId} (inside : id < graph.nodes.size) :
    ∃ node, graph.nodes[id]? = some node :=
  ⟨_, Array.getElem?_eq_getElem inside⟩

theorem Graph.KeepsNodes.lt_size {earlier later : Graph} (keeps : earlier.KeepsNodes later) {id : TypeId}
    (inside : id < earlier.nodes.size) : id < later.nodes.size := by
  obtain ⟨node, found⟩ := exists_node inside
  exact lt_size_of_getElem? (keeps id node found)

/-- The second graph has the places of the first, under the same texts. -/
structure Graph.KeepsTexts (earlier later : Graph) : Prop where
  size : earlier.nodes.size ≤ later.nodes.size
  text : ∀ id < earlier.nodes.size, later.text id = earlier.text id

theorem Graph.KeepsNodes.keepsTexts {earlier later : Graph} (keeps : earlier.KeepsNodes later) :
    earlier.KeepsTexts later where
  size := by
    by_contra fewer
    exact Nat.lt_irrefl _ (keeps.lt_size (Nat.lt_of_not_le fewer))
  text id inside := by
    obtain ⟨node, found⟩ := exists_node inside
    rw [Graph.text_of_getElem? found, Graph.text_of_getElem? (keeps id node found)]

theorem Graph.KeepsTexts.referenceText_eq {earlier later : Graph} (keeps : earlier.KeepsTexts later)
    (name : String) {arguments : List TypeId} (inside : ∀ id ∈ arguments, id < earlier.nodes.size) :
    later.referenceText name arguments = earlier.referenceText name arguments := by
  have texts : arguments.map later.text = arguments.map earlier.text :=
    List.map_congr_left fun id member => keeps.text id (inside id member)
  rw [Graph.referenceText, Graph.referenceText, Graph.joinedTexts, Graph.joinedTexts, texts]

/-- The second graph is the first after a step: it keeps all nodes, and a declared type that it
remembers anew has a new place. -/
structure Graph.Extends (earlier later : Graph) : Prop where
  nodes : earlier.KeepsNodes later
  fresh : ∀ declared id, later.instances.lookup declared = some id →
    earlier.instances.lookup declared = some id ∨ earlier.nodes.size ≤ id

theorem Graph.Extends.refl (graph : Graph) : graph.Extends graph :=
  ⟨fun _ _ found => found, fun _ _ found => .inl found⟩

theorem Graph.Extends.trans {first second third : Graph} (before : first.Extends second)
    (after : second.Extends third) : first.Extends third where
  nodes id node found := after.nodes id node (before.nodes id node found)
  fresh declared id found := by
    rcases after.fresh declared id found with held | new
    · exact before.fresh declared id held
    · exact .inr (Nat.le_trans before.nodes.keepsTexts.size new)

theorem Graph.extends_allocate (kind : Kind) (text : String) (graph : Graph) :
    graph.Extends (allocate kind text graph).2 :=
  ⟨fun _ _ found => getElem?_push_of_some _ found, fun _ _ found => .inl found⟩

/-! ### Origins -/

/-- The structure of a type that is known by its name: it is none that classification looks into. -/
def Kind.isNominal : Kind → Bool
  | .intersection _ | .unresolved | .opaqueType | .pending => true
  | _ => false

/-- The type stands for a name with arguments. Names of identifier types stand for types that are
known by their names. -/
structure Graph.RefersTo (graph : Graph) (id : TypeId) (name : String) (arguments : List TypeId) :
    Prop where
  inside : ∀ argument ∈ arguments, argument < graph.nodes.size
  node : ∃ kind, graph.nodes[id]? = some ⟨kind, graph.referenceText name arguments⟩ ∧
    (namesIdentifier name.toList = true → kind.isNominal = true)

/-- Where the text of a node comes from. -/
inductive Graph.Origin (graph : Graph) : Node → Prop where
  /-- It names no identifiers. -/
  | plain {node : Node} (none : identifierArgument? node.text = none) : graph.Origin node
  /-- It is that of a union. -/
  | union (members : List TypeId) (text : String) : graph.Origin ⟨.union members, text⟩
  /-- It is that of an intersection. -/
  | intersection (parts : List TypeId) :
    graph.Origin ⟨.intersection parts, graph.joinedTexts parts " & "⟩
  /-- It stands in the source. -/
  | source {kind : Kind} (text : String) (own : kind = .opaqueType ∨ kind = .numberLiteral text) :
    graph.Origin ⟨kind, text⟩
  /-- It is a name with arguments. -/
  | reference {name : String} {arguments : List TypeId} {kind : Kind}
    (inside : ∀ argument ∈ arguments, argument < graph.nodes.size)
    (nominal : namesIdentifier name.toList = true → kind.isNominal = true) :
    graph.Origin ⟨kind, graph.referenceText name arguments⟩

/-- The node has this structure, whose parts are nodes of before, and names no identifiers. -/
def Graph.Stands (graph : Graph) (id : TypeId) (kind : Kind) : Prop :=
  ∃ text, identifierArgument? text = none ∧ graph.nodes[id]? = some ⟨kind, text⟩ ∧
    ∀ part ∈ kind.parts, part < id

theorem Graph.Stands.keep {earlier later : Graph} (keeps : earlier.KeepsNodes later) {id : TypeId}
    {kind : Kind} (stands : earlier.Stands id kind) : later.Stands id kind := by
  obtain ⟨text, plain, found, before⟩ := stands
  exact ⟨text, plain, keeps id _ found, before⟩

theorem Graph.Stands.lt_size {graph : Graph} {id : TypeId} {kind : Kind}
    (stands : graph.Stands id kind) : id < graph.nodes.size := by
  obtain ⟨_, _, found, _⟩ := stands
  exact lt_size_of_getElem? found

/-- All texts have an origin, all parts are nodes, and what is remembered has the right text. -/
structure Graph.Traced (graph : Graph) : Prop where
  method : methodType < graph.nodes.size
  parts : ∀ (id : TypeId) (node : Node), graph.nodes[id]? = some node →
    ∀ part ∈ node.kind.parts, part < graph.nodes.size
  origins : ∀ (id : TypeId) (node : Node), graph.nodes[id]? = some node → graph.Origin node
  keywords : ∀ keyword id, graph.keywords.lookup keyword = some id →
    graph.nodes[id]? = some ⟨.primitive keyword, keyword.text⟩
  literals : ∀ value id, graph.literals.lookup value = some id →
    graph.nodes[id]? = some ⟨.stringLiteral value, literalText value⟩
  instances : ∀ declared id, graph.instances.lookup declared = some id →
    graph.RefersTo id declared.name declared.arguments
  values : ∀ name id, graph.values.lookup name = some id → id < graph.nodes.size

theorem Graph.Traced.closed {graph : Graph} (traced : graph.Traced) : graph.Closed :=
  ⟨traced.method, traced.parts⟩

theorem Graph.traced_initial : Graph.initial.Traced where
  method := by decide
  parts id node found := by
    have same : id = 0 := Nat.lt_one_iff.mp (lt_size_of_getElem? found)
    subst same
    cases found
    intro part member
    cases member
  origins id node found := by
    have same : id = 0 := Nat.lt_one_iff.mp (lt_size_of_getElem? found)
    subst same
    cases found
    exact .source _ (.inl rfl)
  keywords _ _ found := by cases found
  literals _ _ found := by cases found
  instances _ _ found := by cases found
  values _ _ found := by cases found

section Later

variable {earlier later : Graph}

theorem Graph.RefersTo.keep (keeps : earlier.KeepsNodes later) {id : TypeId} {name : String}
    {arguments : List TypeId} (refers : earlier.RefersTo id name arguments) :
    later.RefersTo id name arguments where
  inside argument member := keeps.lt_size (refers.inside argument member)
  node := by
    obtain ⟨kind, found, nominal⟩ := refers.node
    refine ⟨kind, ?_, nominal⟩
    rw [keeps.keepsTexts.referenceText_eq name refers.inside]
    exact keeps _ _ found

/-- An origin stays one as long as the texts stay. -/
theorem Graph.Origin.keep (keeps : earlier.KeepsTexts later) {node : Node}
    (origin : earlier.Origin node) (inside : ∀ part ∈ node.kind.parts, part < earlier.nodes.size) :
    later.Origin node := by
  cases origin with
  | plain none => exact .plain none
  | union members text => exact .union members text
  | intersection parts =>
    have texts : parts.map later.text = parts.map earlier.text :=
      List.map_congr_left fun id member => keeps.text id (inside id member)
    rw [Graph.joinedTexts, ← texts]
    exact .intersection parts
  | source text own => exact .source text own
  | reference inside nominal =>
    rename_i held
    rw [← keeps.referenceText_eq _ held]
    exact .reference (fun argument member => Nat.lt_of_lt_of_le (held argument member) keeps.size)
      nominal

/-- A traced graph with one more node of known origin, whose parts are nodes, is traced. -/
theorem Graph.Traced.push (traced : earlier.Traced) {kind : Kind} {text : String}
    (inside : ∀ part ∈ kind.parts, part < earlier.nodes.size)
    (origin : earlier.Origin ⟨kind, text⟩) : (allocate kind text earlier).2.Traced := by
  have keeps := (earlier.extends_allocate kind text).nodes
  have cases' : ∀ (id : TypeId) (node : Node),
      (allocate kind text earlier).2.nodes[id]? = some node →
        earlier.nodes[id]? = some node ∨ node = ⟨kind, text⟩ := by
    intro id node found
    have pushed : (earlier.nodes.push ⟨kind, text⟩)[id]? = some node := found
    rw [Array.getElem?_push] at pushed
    split at pushed
    · exact .inr (Option.some.inj pushed).symm
    · exact .inl pushed
  exact {
    method := keeps.lt_size traced.method
    parts := by
      intro id node found part member
      rcases cases' id node found with held | rfl
      · exact keeps.lt_size (traced.parts id node held part member)
      · exact keeps.lt_size (inside part member)
    origins := by
      intro id node found
      rcases cases' id node found with held | rfl
      · exact (traced.origins id node held).keep keeps.keepsTexts (traced.parts id node held)
      · exact origin.keep keeps.keepsTexts inside
    keywords := fun keyword id found => keeps _ _ (traced.keywords keyword id found)
    literals := fun value id found => keeps _ _ (traced.literals value id found)
    instances := fun declared id found => (traced.instances declared id found).keep keeps
    values := fun name id found => keeps.lt_size (traced.values name id found) }

end Later

/-! ### Steps -/

/-- What is said of a graph stays true when nodes are added. -/
class Kept (property : Graph → Prop) : Prop where
  kept : ∀ {earlier later : Graph}, earlier.KeepsNodes later → property earlier → property later

instance (property : Prop) : Kept fun _ => property := ⟨fun _ holds => holds⟩

instance {left right : Graph → Prop} [Kept left] [Kept right] :
    Kept fun graph => left graph ∧ right graph :=
  ⟨fun keeps both => ⟨Kept.kept keeps both.1, Kept.kept keeps both.2⟩⟩

instance (id : TypeId) : Kept fun graph => id < graph.nodes.size :=
  ⟨fun keeps inside => keeps.lt_size inside⟩

instance {ι : Type} (items : List ι) (place : ι → TypeId) :
    Kept fun graph => ∀ item ∈ items, place item < graph.nodes.size :=
  ⟨fun keeps inside item member => keeps.lt_size (inside item member)⟩

instance (found : Option TypeId) : Kept fun graph => ∀ id ∈ found, id < graph.nodes.size :=
  ⟨fun keeps inside id member => keeps.lt_size (inside id member)⟩

instance (id : TypeId) (node : Node) : Kept fun graph => graph.nodes[id]? = some node :=
  ⟨fun keeps found => keeps id node found⟩

section Traces

variable {α β : Type} {before : Graph → Prop} {step : Building α} {after : Graph → α → Prop}

/-- The step leads from traced graphs to traced graphs, and keeps every node. -/
def Traces (before : Graph → Prop) (step : Building α) (after : Graph → α → Prop) : Prop :=
  ∀ graph, graph.Traced → before graph → (step graph).2.Traced ∧ graph.Extends (step graph).2 ∧
    after (step graph).2 (step graph).1

theorem Traces.pure {value : α} (holds : ∀ graph, graph.Traced → before graph → after graph value) :
    Traces before (pure value) after :=
  fun graph traced given => ⟨traced, .refl graph, holds graph traced given⟩

/-- More may be known before, and less is needed after. -/
theorem Traces.imp {stronger : Graph → Prop} {weaker : Graph → α → Prop}
    (traces : Traces before step after) (implied : ∀ graph, stronger graph → before graph)
    (implies : ∀ graph value, after graph value → weaker graph value) :
    Traces stronger step weaker := by
  intro graph traced given
  obtain ⟨traced, extended, holds⟩ := traces graph traced (implied graph given)
  exact ⟨traced, extended, implies _ _ holds⟩

theorem Traces.weaken {stronger : Graph → Prop} (traces : Traces before step after)
    (implied : ∀ graph, stronger graph → before graph) : Traces stronger step after :=
  traces.imp implied fun _ _ holds => holds

theorem Traces.conclude {weaker : Graph → α → Prop} (traces : Traces before step after)
    (implies : ∀ graph value, after graph value → weaker graph value) : Traces before step weaker :=
  traces.imp (fun _ given => given) implies

/-- **Steps that follow each other are composed.** -/
theorem Traces.bind [Kept before] {rest : α → Building β} {last : Graph → β → Prop}
    (first : Traces before step after)
    (traces : ∀ value, Traces (fun graph => before graph ∧ after graph value) (rest value) last) :
    Traces before (step >>= rest) last := by
  intro graph traced given
  obtain ⟨between, extended, holds⟩ := first graph traced given
  obtain ⟨traced', further, ends⟩ :=
    traces (step graph).1 (step graph).2 between ⟨Kept.kept extended.nodes given, holds⟩
  exact ⟨traced', extended.trans further, ends⟩

/-- What stays true when nodes are added is still true after the step. -/
theorem Traces.carry (traces : Traces before step after) (fact : Graph → Prop) [Kept fact] :
    Traces (fun graph => before graph ∧ fact graph) step fun graph value =>
      after graph value ∧ fact graph := by
  intro graph traced given
  obtain ⟨traced, extended, holds⟩ := traces graph traced given.1
  exact ⟨traced, extended, holds, Kept.kept extended.nodes given.2⟩

/-- A step that reads the graph goes on with a traced one. -/
theorem Traces.look {rest : Graph → Building β} {last : Graph → β → Prop}
    (traces : ∀ seen, seen.Traced → before seen →
      Traces (fun graph => graph = seen) (rest seen) last) :
    Traces before (get >>= rest) last :=
  fun graph traced given => traces graph traced given graph traced rfl

/-- What was read is used as a fact about the graph that goes on. -/
theorem Traces.using {seen : Graph} (fact : Graph → Prop) (holds : fact seen)
    (traces : Traces fact step after) : Traces (fun graph => graph = seen) step after :=
  traces.weaken fun _ same => same ▸ holds

theorem Traces.ite {condition : Prop} [Decidable condition] {yes no : Building α}
    (traces : Traces before yes after) (otherwise : Traces before no after) :
    Traces before (if condition then yes else no) after := by
  split
  · exact traces
  · exact otherwise

/-- A new node of known origin, whose parts are nodes. -/
theorem traces_allocate {kind : Kind} {text : String}
    (inside : ∀ graph, graph.Traced → before graph → ∀ part ∈ kind.parts, part < graph.nodes.size)
    (origin : ∀ graph, graph.Traced → before graph → graph.Origin ⟨kind, text⟩) :
    Traces before (allocate kind text) fun graph id =>
      graph.nodes[id]? = some ⟨kind, text⟩ ∧ ∀ part ∈ kind.parts, part < id :=
  fun graph traced given => ⟨traced.push (inside graph traced given) (origin graph traced given),
    graph.extends_allocate kind text, Array.getElem?_push_size, inside graph traced given⟩

/-- A new node without parts. -/
theorem traces_leaf {kind : Kind} {text : String} (alone : kind.parts = [])
    (origin : ∀ graph, graph.Traced → before graph → graph.Origin ⟨kind, text⟩) :
    Traces before (allocate kind text) fun graph id => graph.nodes[id]? = some ⟨kind, text⟩ :=
  (traces_allocate (fun _ _ _ part member => by rw [alone] at member; cases member) origin).conclude
    fun _ _ held => held.1

end Traces

/-! ### Words and literals -/

theorem identifierArgument?_keyword (keyword : Keyword) :
    identifierArgument? keyword.text = none := by
  cases keyword <;> decide

theorem identifierArgument?_literalText (value : String) :
    identifierArgument? (literalText value) = none := by
  have ending : (literalText value).toList.getLast? = some '"' := by
    rw [toList_literalText, List.getLast?_concat]
  exact identifierArgument?_of_getLast? ending (by decide)

/-- A graph with the nodes of a traced one is traced if what it remembers is among them. -/
theorem Graph.Traced.remember {graph other : Graph} (traced : graph.Traced)
    (nodes : other.nodes = graph.nodes)
    (keywords : ∀ keyword id, other.keywords.lookup keyword = some id →
      graph.nodes[id]? = some ⟨.primitive keyword, keyword.text⟩)
    (literals : ∀ value id, other.literals.lookup value = some id →
      graph.nodes[id]? = some ⟨.stringLiteral value, literalText value⟩)
    (instances : ∀ declared id, other.instances.lookup declared = some id →
      graph.RefersTo id declared.name declared.arguments)
    (values : ∀ name id, other.values.lookup name = some id → id < graph.nodes.size) :
    other.Traced := by
  have extended : graph.KeepsNodes other := fun id node found => by rw [nodes]; exact found
  exact {
    method := extended.lt_size traced.method
    parts := by
      rw [nodes]
      exact traced.parts
    origins := by
      intro id node found
      rw [nodes] at found
      exact (traced.origins id node found).keep extended.keepsTexts (traced.parts id node found)
    keywords := fun keyword id found => extended _ _ (keywords keyword id found)
    literals := fun value id found => extended _ _ (literals value id found)
    instances := fun declared id found => (instances declared id found).keep extended
    values := fun name id found => extended.lt_size (values name id found) }

theorem traces_keywordType (before : Graph → Prop) (keyword : Keyword) :
    Traces before (keywordType keyword) fun graph id =>
      graph.nodes[id]? = some ⟨.primitive keyword, keyword.text⟩ := by
  intro graph traced _
  cases known : graph.keywords.lookup keyword with
  | some id =>
    rw [keywordType_of_some known]
    exact ⟨traced, .refl graph, traced.keywords keyword id known⟩
  | none =>
    have leaf : Traces (fun _ => True) (allocate (.primitive keyword) keyword.text) _ :=
      traces_leaf rfl fun _ _ _ => .plain (identifierArgument?_keyword keyword)
    obtain ⟨pushed, extended, found⟩ := leaf graph traced trivial
    rw [keywordType_of_none known]
    refine ⟨pushed.remember rfl ?_ pushed.literals pushed.instances pushed.values,
      ⟨extended.nodes, extended.fresh⟩, found⟩
    intro other id held
    rcases lookup_cons_cases held with ⟨rfl, rfl⟩ | before
    · exact found
    · exact extended.nodes _ _ (traced.keywords other id before)

theorem traces_stringLiteralType (before : Graph → Prop) (value : String) :
    Traces before (stringLiteralType value) fun graph id =>
      graph.nodes[id]? = some ⟨.stringLiteral value, literalText value⟩ := by
  intro graph traced _
  cases known : graph.literals.lookup value with
  | some id =>
    rw [stringLiteralType_of_some known]
    exact ⟨traced, .refl graph, traced.literals value id known⟩
  | none =>
    have leaf : Traces (fun _ => True) (allocate (.stringLiteral value) (literalText value)) _ :=
      traces_leaf rfl fun _ _ _ => .plain (identifierArgument?_literalText value)
    obtain ⟨pushed, extended, found⟩ := leaf graph traced trivial
    rw [stringLiteralType_of_none known]
    refine ⟨pushed.remember rfl pushed.keywords ?_ pushed.instances pushed.values,
      ⟨extended.nodes, extended.fresh⟩, found⟩
    intro other id held
    rcases lookup_cons_cases held with ⟨rfl, rfl⟩ | before
    · exact found
    · exact extended.nodes _ _ (traced.literals other id before)

end SwiftBindings.TypeGraph
