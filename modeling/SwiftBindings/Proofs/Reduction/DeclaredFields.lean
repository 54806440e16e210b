/-
**Fields of declared objects.**

A type that comes from type literals and interfaces alone is reduced to an object with one field for each
property that is declared of it, in order, but for those with the name of an inherited member
(`reduceWithin_assembled`). The filter of inherited members looks at names only, so it drops a declared
property that happens to have such a name (`sizedBox_loses_length`).

A field may be absent where its property is declared so or its type admits the absent value
(`Graph.AdmitsUndefined`). Reduction finds the absent value among the alternatives of a union, but not
among those of an alternative that is itself a union; `Graph.TellsAbsence` says that there is no such
alternative.
-/

import SwiftBindings.Proofs.Reduction.Visits
import SwiftBindings.Proofs.TypeGraph.DeclaredProperties

namespace SwiftBindings.TypeGraph

open Reduction

/-- The properties that are declared of a type and have no name of an inherited member. -/
def Assembly.ownProperties (assembly : Assembly) : List Property :=
  assembly.properties.filter fun property => !isInherited property.name

/-! ### The absent value -/

/-- A value of the type may be absent: the type is undefined or void, or has such an alternative. -/
inductive Graph.AdmitsUndefined (graph : Graph) : TypeId → Prop where
  | absent {id : TypeId} (absence : isAbsence (graph.kind id) = true) : AdmitsUndefined graph id
  | alternative {id member : TypeId} {members : List TypeId}
    (found : graph.unionMembers? id = some members) (inside : member ∈ members)
    (admits : AdmitsUndefined graph member) : AdmitsUndefined graph id

/-- Whether the type admits the absent value can be told from the type and its alternatives: no
alternative is a union, and no absent value is named like an identifier of rows. -/
structure Graph.TellsAbsence (graph : Graph) (id : TypeId) : Prop where
  flat : ∀ members, graph.unionMembers? id = some members →
    ∀ member ∈ members, graph.unionMembers? member = none
  unnamed : isAbsence (graph.kind id) = true → identifierArgument? (graph.text id) = none

section Absence

variable {graph : Graph} {id : TypeId}

theorem unionMembers?_of_isAbsence (absence : isAbsence (graph.kind id) = true) :
    graph.unionMembers? id = none := by
  rw [Graph.unionMembers?]
  split
  · rename_i kind
    rw [kind] at absence
    cases absence
  · rfl

theorem Graph.admitsUndefined_single (single : graph.unionMembers? id = none) :
    graph.AdmitsUndefined id ↔ isAbsence (graph.kind id) = true := by
  refine ⟨fun admits => ?_, .absent⟩
  cases admits with
  | absent absence => exact absence
  | alternative found _ _ =>
    rw [single] at found
    cases found

theorem Graph.TellsAbsence.admitsUndefined_union (tells : graph.TellsAbsence id) {members : List TypeId}
    (found : graph.unionMembers? id = some members) :
    graph.AdmitsUndefined id ↔ (members.any fun member => isAbsence (graph.kind member)) = true := by
  rw [List.any_eq_true]
  constructor
  · intro admits
    cases admits with
    | absent absence =>
      rw [unionMembers?_of_isAbsence absence] at found
      cases found
    | alternative found' inside admits =>
      rw [found] at found'
      cases found'
      exact ⟨_, inside, (Graph.admitsUndefined_single (tells.flat _ found _ inside)).mp admits⟩
  · rintro ⟨member, inside, absence⟩
    exact .alternative found inside (.absent absence)

end Absence

deriving instance DecidableEq for Graph, CopiedBase

end SwiftBindings.TypeGraph

namespace SwiftBindings.Reduction

open Declared TypeGraph

section Optional

variable {graph : Graph} {reduce : TypeId → Visit Validator} {id : TypeId} {trail : Trail}

theorem optional_atom (present : isAbsence (graph.kind id) = false) {validator : Validator}
    (atom : atomValidator? graph id = some validator) : validator.optional = false := by
  rw [atomValidator?] at atom
  split at atom
  · cases atom
    rfl
  · split at atom
    · cases atom
      rfl
    · split at atom
      case h_2 absent => rw [absent] at present; cases present
      case h_3 absent => rw [absent] at present; cases present
      all_goals cases atom
      all_goals rfl

/-- A type that is no union lets values be absent only if it is the absent value itself. -/
theorem optional_classifySingle (present : isAbsence (graph.kind id) = false) :
    (classifySingle graph reduce id trail).1.optional = false := by
  rcases classifySingle_cases with ⟨validator, atom, same⟩ | ⟨shape, same⟩
  · rw [same]
    exact optional_atom present atom
  · rw [same]
    rfl

theorem optional_classifySingle_absence (absence : isAbsence (graph.kind id) = true)
    (unnamed : identifierArgument? (graph.text id) = none) :
    (classifySingle graph reduce id trail).1.optional = true := by
  have kind : graph.kind id = .primitive .undefined ∨ graph.kind id = .primitive .void := by
    simpa [isAbsence] using absence
  have atom : atomValidator? graph id = some ((gapOf graph id .nullOnly).admitting true false) := by
    rw [atomValidator?, identifierTable?, unnamed, brandedTable?]
    rcases kind with kind | kind <;> rw [kind] <;> rfl
  rw [classifySingle_atom atom]
  rfl

theorem optional_unionValidator (members : List TypeId) :
    (unionValidator graph members).optional = false := by
  obtain ⟨shape, same⟩ := unionValidator_eq_ofShape members
  rw [same]
  rfl

/-- A visit of a type that is no union and not the absent value. -/
theorem optional_reduceWithin_present (levels : Nat) (single : graph.unionMembers? id = none)
    (present : isAbsence (graph.kind id) = false) :
    (reduceWithin graph levels id trail).1.optional = false := by
  rcases reduceWithin_single_cases levels single with ⟨validator, atom, same⟩ | ⟨shape, same⟩
  · rw [same]
    exact optional_atom present atom
  · rw [same]
    rfl

/-- **A validator lets a value be absent exactly where its type admits the absent value.** -/
theorem optional_reduceWithin_iff (levels : Nat) (shallow : trail.depth < maximalNesting)
    (new : id ∉ trail.chain) (tells : graph.TellsAbsence id) :
    (reduceWithin graph (levels + 1) id trail).1.optional = true ↔ graph.AdmitsUndefined id := by
  rw [reduceWithin_succ levels shallow new]
  dsimp only
  cases found : graph.unionMembers? id with
  | none =>
    rw [classify_single found, Graph.admitsUndefined_single found]
    cases absence : isAbsence (graph.kind id) with
    | true => simpa using optional_classifySingle_absence absence (tells.unnamed absence)
    | false => simpa using optional_classifySingle absence
  | some members =>
    rw [tells.admitsUndefined_union found]
    generalize present : members.filter (fun member =>
      !isAbsence (graph.kind member) && !isNull (graph.kind member)) = left
    match left, present with
    | [], present =>
      rw [classify_union_none found present]
      rfl
    | [single], present =>
      have kept : single ∈ members.filter fun member =>
          !isAbsence (graph.kind member) && !isNull (graph.kind member) := by
        rw [present]
        exact List.mem_singleton_self single
      obtain ⟨inside, left⟩ := List.mem_filter.mp kept
      have absent : isAbsence (graph.kind single) = false :=
        (Bool.not_eq_true' _).mp (Bool.and_eq_true_iff.mp left).1
      rw [classify_union_one found present]
      have alone : (reduceWithin graph levels single (trail.enter id)).1.optional = false :=
        optional_reduceWithin_present levels (tells.flat members found single inside) absent
      show ((reduceWithin graph levels single (trail.enter id)).1.optional || _) = true ↔ _
      rw [alone, Bool.false_or]
    | first :: second :: rest, present =>
      rw [classify_union_many found present (by simp)]
      show ((unionValidator graph (first :: second :: rest)).optional || _) = true ↔ _
      rw [optional_unionValidator, Bool.false_or]

end Optional

/-! ### Fields -/

section Fields

variable {symbols : Symbols} {graph : Graph} {id : TypeId} {assembly : Assembly} {trail : Trail}
  {levels : Nat}

/-- What is said of a field beside the property that it stands for: it has the name of the property
and the validator of its type, and it may be absent where the property says so or its type admits the
absent value. -/
structure IsFieldOf (graph : Graph) (levels : Nat) (trail : Trail) (property : Property)
    (field : Field) : Prop where
  name : field.name = property.name
  schema : field.schema = (reduceWithin graph levels property.type trail).1
  optional : trail.depth < maximalNesting → property.type ∉ trail.chain →
    graph.TellsAbsence property.type →
      (field.optional = true ↔ property.optional = true ∨ graph.AdmitsUndefined property.type)

theorem isFieldOf_declare (enough : maximalNesting ≤ trail.depth + levels) (property : Property) :
    IsFieldOf graph levels trail property
      (.declare property.name (reduceWithin graph levels property.type trail).1 property.optional) where
  name := rfl
  schema := rfl
  optional := by
    intro shallow new tells
    obtain ⟨fewer, rfl⟩ : ∃ fewer, levels = fewer + 1 := ⟨levels - 1, by omega⟩
    rw [Field.declare, Bool.or_eq_true, optional_reduceWithin_iff fewer shallow new tells, or_comm]

theorem forall₂_isFieldOf (enough : maximalNesting ≤ trail.depth + levels)
    (properties : List Property) :
    List.Forall₂ (IsFieldOf graph levels trail) properties
      (reduceFields (reduceWithin graph levels) properties trail).1 := by
  rw [fields_reduceFields (trail_reduceWithin levels), List.forall₂_map_right_iff, List.forall₂_same]
  exact fun property _ => isFieldOf_declare enough property

theorem names_of_isFieldOf {properties : List Property} {fields : List Field}
    (fit : List.Forall₂ (IsFieldOf graph levels trail) properties fields) :
    fields.map Field.name = properties.map Property.name := by
  induction fit with
  | nil => rfl
  | cons first _ ih => rw [List.map_cons, List.map_cons, first.name, ih]

section Assembled

variable (assembled : graph.Assembled symbols (walkDepth + 1) id assembly)

include assembled

theorem fieldProperties_assembled : fieldProperties graph id = assembly.ownProperties := by
  rw [fieldProperties, assembled.properties_eq]
  rfl

theorem kind_assembled :
    (∃ shape, graph.kind id = .object shape) ∨ ∃ parts, graph.kind id = .intersection parts := by
  have structured := assembled.isStructured
  rw [Graph.isStructured] at structured
  split at structured
  · rename_i shape kind
    exact .inl ⟨shape, kind⟩
  · rename_i parts kind
    exact .inr ⟨parts, kind⟩
  · cases structured

theorem unionMembers?_assembled : graph.unionMembers? id = none := by
  rw [Graph.unionMembers?]
  obtain ⟨_, kind⟩ | ⟨_, kind⟩ := kind_assembled assembled <;> rw [kind]

theorem arrayElement?_assembled : graph.arrayElement? id = none := by
  rw [Graph.arrayElement?]
  obtain ⟨_, kind⟩ | ⟨_, kind⟩ := kind_assembled assembled <;> rw [kind]

theorem atomValidator?_assembled (plain : IsPlainName assembly.name) :
    atomValidator? graph id = none := by
  rw [atomValidator?, assembled.identifierTable?_eq_none plain]
  obtain ⟨_, kind⟩ | ⟨_, kind⟩ := kind_assembled assembled <;> rw [kind] <;> rfl

variable (plain : IsPlainName assembly.name) (closed : graph.index? id = none)
  (shallow : trail.depth < maximalNesting) (new : id ∉ trail.chain)

include plain closed shallow new

/-- Where all that is declared has names of inherited members, the type is no object. -/
theorem reduceWithin_assembled_empty (absent : assembly.ownProperties = []) :
    reduceWithin graph (levels + 1) id trail = (gapOf graph id .unclassified, trail) := by
  rw [← fieldProperties_assembled assembled] at absent
  rw [reduceWithin_succ levels shallow new, classify_single (unionMembers?_assembled assembled),
    classifySingle_empty (atomValidator?_assembled assembled plain) (arrayElement?_assembled assembled)
      closed absent, trail.leave_enter]

/-- **No declared field is lost**, but for those with the name of an inherited member. A type that comes
from type literals and interfaces alone is reduced, wherever it is met for the first time and not too
deeply, to an object with exactly one field for each other property that is declared of it, in order.
The levels are those that are left at such a visit. -/
theorem reduceWithin_assembled (enough : maximalNesting ≤ trail.depth + levels)
    (present : assembly.ownProperties ≠ []) :
    ∃ fields, reduceWithin graph (levels + 1) id trail = (.ofShape (.object fields), trail) ∧
      List.Forall₂ (IsFieldOf graph levels (trail.enter id)) assembly.ownProperties fields ∧
      (fields.map Field.name).Nodup := by
  have listed := fieldProperties_assembled assembled
  rw [← listed] at present ⊢
  have distinct : ((fieldProperties graph id).map Property.name).Nodup := by
    rw [listed]
    exact assembled.nodup_names.sublist (List.filter_sublist.map _)
  have within : maximalNesting ≤ (trail.enter id).depth + levels := by
    show maximalNesting ≤ trail.depth + 1 + levels
    omega
  refine ⟨_, ?_, forall₂_isFieldOf within _, ?_⟩
  · rw [reduceWithin_succ levels shallow new, classify_single (unionMembers?_assembled assembled),
      classifySingle_object (atomValidator?_assembled assembled plain)
        (arrayElement?_assembled assembled) closed present,
      trail_reduceFields (trail_reduceWithin levels), trail.leave_enter]
  · rwa [names_reduceFields]

end Assembled

end Fields

/-! ### An interface, an alias and a type literal -/

/-- A value of an interface with a base, in an intersection with an alias of a type literal. -/
def markedTask : Symbols := .ofItems
  [.interface "Entry" [] []
      [.property "id" false (.keyword .string), .property "note" true (.keyword .string)] false,
    .interface "Task" [] [.reference "Entry" []]
      [.property "note" false (.union [.keyword .string, .keyword .undefined]),
        .property "length" false (.keyword .number)] false,
    .typeAlias "Marked" [] (.object [.property "done" true (.keyword .boolean)]) false,
    .value "task" (.intersection [.reference "Task" [], .reference "Marked" []]) true]

/-- The run of the interface. -/
def taskRun : InstanceRun markedTask .none ⟨"Task", []⟩ 1 :=
  .first rfl { Graph.initial with resolving := ["task"] } 65 (by decide)

/-- The run of its base. -/
def entryRun : InstanceRun markedTask .none ⟨"Entry", []⟩ 2 :=
  .first rfl taskRun.bound.2 64 (by decide)

/-- The run of the alias. -/
def markedRun : InstanceRun markedTask .none ⟨"Marked", []⟩ 7 :=
  .first rfl taskRun.after 65 (by decide)

/-- The graph after the value was asked for. -/
def markedGraph : Graph := graphAfter markedTask ["task"] .initial

/-- The properties that the declared types write down. -/
def markedAssemblies : List (TypeId × Assembly) :=
  [(1, ⟨"Task", latest (latest (latest entryRun.written) ++ latest taskRun.written)⟩),
    (7, ⟨"Marked", latest [⟨"done", 8, true⟩]⟩)]

theorem markedRun_stands : markedRun.StandsIn markedGraph ∧ taskRun.StandsIn markedGraph := by
  have ends : markedGraph = (intersectionType [1, 7] markedRun.after).2.leaveValue "task" 10 := by
    decide +kernel
  have last : markedRun.after.Continues markedGraph := by
    rw [ends]
    exact (allocate_grows Kind.noConfusion _ _).continues.trans
      (leaveValue_continues 10 (by decide +kernel))
  have starts : markedRun.StartsIn taskRun.after := ⟨by decide +kernel, rfl⟩
  have free : taskRun.after.instances.lookup ⟨"Marked", []⟩ = none := by decide +kernel
  have before : taskRun.StartsIn { Graph.initial with resolving := ["task"] } := ⟨rfl, rfl⟩
  exact ⟨starts.standsIn last, before.standsIn ((starts.after_grows free).continues.trans last)⟩

theorem entryRun_stands : entryRun.StandsIn markedGraph := by
  have isInterface : taskRun.definition.body = .interface [.reference "Entry" []]
      [.property "note" false (.union [.keyword .string, .keyword .undefined]),
        .property "length" false (.keyword .number)] := rfl
  have copied : ⟨2, entryRun.after⟩ ∈ taskRun.copied := by decide +kernel
  have starts : entryRun.StartsIn taskRun.bound.2 := ⟨by decide +kernel, rfl⟩
  exact starts.standsIn
    ((taskRun.copied_continue isInterface _ copied).trans markedRun_stands.2.later)

/-- The type of the value comes from type literals and interfaces alone. -/
theorem markedTask_assembled : markedGraph.Assembled markedTask (walkDepth + 1) 10
    ⟨"Task", earliest (markedAssemblies.flatMap fun entry => entry.2.properties)⟩ := by
  obtain ⟨standsMarked, standsTask⟩ := markedRun_stands
  have none : ([] : List TypeId) = ([] : List (TypeId × Assembly)).map Prod.fst := rfl
  have entry : markedGraph.Assembled markedTask (walkDepth + 1) 2
      ⟨"Entry", latest (latest entryRun.written)⟩ :=
    .interface entryRun entryRun_stands rfl (by decide +kernel) none fun _ member => by cases member
  have copied : taskRun.copied.map CopiedBase.type =
      [((2, ⟨"Entry", latest (latest entryRun.written)⟩) : TypeId × Assembly)].map Prod.fst := by
    decide +kernel
  have task : markedGraph.Assembled markedTask walkDepth 1
      ⟨"Task", latest (latest (latest entryRun.written) ++ latest taskRun.written)⟩ :=
    .interface taskRun standsTask rfl (by decide +kernel) copied fun _ member => by
      rw [List.mem_singleton.mp member]
      exact entry
  have marked : markedGraph.Assembled markedTask walkDepth 7
      ⟨"Marked", latest [⟨"done", 8, true⟩]⟩ :=
    .typeAlias markedRun standsMarked rfl (by decide +kernel) (.literal standsMarked.later)
  have node : markedGraph.nodes[10]? = some ⟨.intersection (markedAssemblies.map Prod.fst),
      markedGraph.joinedTexts (markedAssemblies.map Prod.fst) " & "⟩ := by decide +kernel
  refine .intersection node fun part member => ?_
  obtain rfl | rfl : part = _ ∨ part = _ := by simpa [markedAssemblies] using member
  · exact task
  · exact marked

/-- Its fields are those of the base, of the interface and of the type literal but for the one that has
the name of an inherited member. -/
theorem markedTask_keeps_fields :
    ∃ fields, reduceWithin markedGraph (maximalNesting + 1) 10 .empty =
        (.ofShape (.object fields), .empty) ∧
      fields.map Field.name = ["id", "note", "done"] := by
  have plain : IsPlainName "Task" := ⟨by decide, by decide, by decide⟩
  have closed : markedGraph.index? 10 = none := by decide +kernel
  have shallow : Trail.empty.depth < maximalNesting := by decide
  have new : 10 ∉ Trail.empty.chain := List.not_mem_nil
  have enough : maximalNesting ≤ Trail.empty.depth + maximalNesting := Nat.le_add_left _ _
  obtain ⟨fields, reduced, fit, _⟩ := reduceWithin_assembled markedTask_assembled plain closed shallow
    new enough (by decide +kernel)
  refine ⟨fields, reduced, ?_⟩
  rw [names_of_isFieldOf fit]
  decide +kernel

/-! ### A property with the name of an inherited member -/

/-- A value of a type literal with two properties. -/
def sizedBox : Symbols := .ofItems
  [.value "box" (.object [.property "length" false (.keyword .number),
    .property "label" false (.keyword .string)]) true]

/-- The names of the fields of an object. -/
def fieldNames? : Shape → Option (List String)
  | .object fields => some (fields.map Field.name)
  | _ => none

/-- One of them is lost, though both are declared in a type literal and none is keyed by a symbol. -/
theorem sizedBox_loses_length :
    let graph := graphAfter sizedBox ["box"] .initial
    ∃ properties, graph.Assembled sizedBox (walkDepth + 1) 3 ⟨"", properties⟩ ∧
      graph.index? 3 = none ∧ properties.map Property.name = ["length", "label"] ∧
      (∀ property ∈ properties, isWellKnownSymbol property.name = false) ∧
      fieldNames? (reduce graph 3).shape = some ["label"] := by
  intro graph
  have found : graph.values.lookup "box" = some 3 := by decide +kernel
  obtain ⟨written, assembled, _⟩ := assembled_of_value sizedBox ["box"] found rfl walkDepth
  have listed : graph.properties 3 = latest written := assembled.properties_eq
  refine ⟨_, assembled, by decide +kernel, ?_, ?_, by decide +kernel⟩
  · rw [← listed]
    decide +kernel
  · rw [← listed]
    decide +kernel

end SwiftBindings.Reduction
