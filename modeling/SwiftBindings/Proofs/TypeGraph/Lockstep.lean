/-
**Two runs in lockstep.**

One run resolves the type of a value; another one resolves the same type within an alias that stands
for it, and has one node more: that of the alias, which is unfinished. `Aliasing.InStep` says that the
graph of the second run is that of the first one with this node put in behind the first one, and
`Aliasing.Alike` that a step keeps the two graphs so and answers the same on both sides.

Steps that follow each other are alike if each of them is (`Aliasing.Alike.bind`), steps that read their
graphs may use that one renames the other (`Aliasing.Alike.look`), and adding the same node is alike
(`alike_allocate`). So all types of the framework are (`alike_providedType`).
-/

import SwiftBindings.Proofs.TypeGraph.FollowingTypes
import SwiftBindings.Proofs.TypeGraph.Mentions
import SwiftBindings.Proofs.TypeGraph.Renaming

set_option linter.unusedSectionVars false

namespace SwiftBindings.TypeGraph

open Declared

/-! ### The place of the alias -/

/-- The place of the alias in the second run. -/
def aliasPlace : TypeId := 1

/-- The place in the second run of a type of the first one. -/
def moved (id : TypeId) : TypeId := if id = methodType then methodType else id + 1

theorem moved_of_ne {id : TypeId} (other : id ≠ methodType) : moved id = id + 1 := if_neg other

theorem moved_ne_aliasPlace (id : TypeId) : moved id ≠ aliasPlace := by
  intro same
  by_cases method : id = methodType
  · subst method
    exact Nat.zero_ne_one same
  · rw [moved_of_ne method] at same
    exact method (Nat.succ.inj same)

theorem moved_injective : Function.Injective moved := by
  intro first second same
  by_cases method : first = methodType
  · subst method
    by_cases method' : second = methodType
    · exact method'.symm
    · rw [moved_of_ne method'] at same
      exact absurd same.symm (Nat.succ_ne_zero second)
  · rw [moved_of_ne method] at same
    by_cases method' : second = methodType
    · subst method'
      exact absurd same (Nat.succ_ne_zero first)
    · rw [moved_of_ne method'] at same
      exact Nat.succ.inj same

/-! ### Entries under new places -/

/-- The declared type with its arguments at their new places. -/
def Instance.rename (place : TypeId → TypeId) (declared : Instance) : Instance :=
  { declared with arguments := declared.arguments.map place }

theorem Instance.rename_injective {place : TypeId → TypeId} (injective : Function.Injective place) :
    Function.Injective (Instance.rename place) := by
  rintro ⟨name, arguments⟩ ⟨name', arguments'⟩ same
  have named : name = name' := congrArg Instance.name same
  have given : arguments.map place = arguments'.map place := congrArg Instance.arguments same
  rw [named, List.map_injective_iff.mpr injective given]

/-- What is remembered under a key is remembered under its image. -/
theorem lookup_map_of_injective {κ κ' ι ι' : Type} [BEq κ] [LawfulBEq κ] [BEq κ'] [LawfulBEq κ']
    {key : κ → κ'} (injective : Function.Injective key) (value : ι → ι') (entries : List (κ × ι))
    (sought : κ) :
    (entries.map (Prod.map key value)).lookup (key sought) = (entries.lookup sought).map value := by
  induction entries with
  | nil => rfl
  | cons entry rest ih =>
    obtain ⟨first, held⟩ := entry
    rw [List.map_cons, Prod.map, List.lookup_cons, List.lookup_cons, ih]
    by_cases same : sought = first
    · rw [same, beq_self_eq_true, beq_self_eq_true]
      rfl
    · rw [beq_false_of_ne same, beq_false_of_ne fun image => same (injective image)]

/-! ### Graphs in step -/

/-- Two values with the same type, of which one is typed by an alias. -/
structure Aliasing where
  /-- The declared names. -/
  symbols : Symbols
  /-- The name of the alias. -/
  name : String
  /-- The value whose type is written out. -/
  direct : String
  /-- The value whose type is the alias. -/
  named : String

/-- What no other declaration may mention. -/
def Aliasing.own (aliasing : Aliasing) : List Mention :=
  [.type aliasing.name, .value aliasing.direct, .value aliasing.named]

section Own

variable (aliasing : Aliasing) {name : String}

theorem Aliasing.ne_name (free : aliasing.own.Disjoint [.type name]) : name ≠ aliasing.name := by
  rintro rfl
  exact free List.mem_cons_self (List.mem_singleton_self _)

theorem Aliasing.ne_values (free : aliasing.own.Disjoint [.value name]) :
    name ≠ aliasing.direct ∧ name ≠ aliasing.named := by
  constructor
  · rintro rfl
    exact free (List.mem_cons_of_mem _ List.mem_cons_self) (List.mem_singleton_self _)
  · rintro rfl
    exact free (List.mem_cons_of_mem _ (List.mem_cons_of_mem _ List.mem_cons_self))
      (List.mem_singleton_self _)

end Own

/-- The node at its new place. -/
def Node.rename (place : TypeId → TypeId) (node : Node) : Node :=
  { node with kind := node.kind.rename place }

/-- The second graph is the first one with the unfinished alias put in. Both runs are within the same
number of declared types and the same values, but for the value that each of them starts from. -/
structure Aliasing.InStep (aliasing : Aliasing) (depth : Nat) (within : List String)
    (graph other : Graph) : Prop where
  occupied : 0 < graph.nodes.size
  size : other.nodes.size = graph.nodes.size + 1
  nodes : ∀ id : TypeId, other.nodes[moved id]? = graph.nodes[id]?.map (Node.rename moved)
  own : other.nodes[aliasPlace]? = some ⟨.pending, aliasing.name⟩
  keywords : other.keywords = graph.keywords.map (Prod.map id moved)
  literals : other.literals = graph.literals.map (Prod.map id moved)
  instances : other.instances =
    graph.instances.map (Prod.map (Instance.rename moved) moved) ++ [(⟨aliasing.name, []⟩, aliasPlace)]
  values : other.values = graph.values.map (Prod.map id moved)
  level : graph.depth = depth
  level' : other.depth = depth
  resolving : graph.resolving = within ++ [aliasing.direct]
  resolving' : other.resolving = within ++ [aliasing.named]

section InStep

variable {aliasing : Aliasing} {depth : Nat} {within : List String} {graph other : Graph}
  (inStep : aliasing.InStep depth within graph other)

include inStep

theorem Aliasing.InStep.renames : graph.Renames moved other where
  method := rfl
  kind id := by
    rw [Graph.SameUnder, Graph.kind, Graph.kind, inStep.nodes]
    cases graph.nodes[id]? <;> rfl
  text id := by
    rw [Graph.text, Graph.text, inStep.nodes]
    cases graph.nodes[id]? <;> rfl

theorem Aliasing.InStep.lookup_keywords (keyword : Keyword) :
    other.keywords.lookup keyword = (graph.keywords.lookup keyword).map moved := by
  rw [inStep.keywords]
  exact lookup_map_of_injective Function.injective_id moved _ keyword

theorem Aliasing.InStep.lookup_literals (value : String) :
    other.literals.lookup value = (graph.literals.lookup value).map moved := by
  rw [inStep.literals]
  exact lookup_map_of_injective Function.injective_id moved _ value

theorem Aliasing.InStep.lookup_values (name : String) :
    other.values.lookup name = (graph.values.lookup name).map moved := by
  rw [inStep.values]
  exact lookup_map_of_injective Function.injective_id moved _ name

/-- No other declared type is the alias. -/
theorem Aliasing.InStep.lookup_instances {name : String} (different : name ≠ aliasing.name)
    (arguments : List TypeId) :
    other.instances.lookup ⟨name, arguments.map moved⟩ =
      (graph.instances.lookup ⟨name, arguments⟩).map moved := by
  have apart : (⟨name, arguments.map moved⟩ : Instance) ≠ ⟨aliasing.name, []⟩ :=
    fun same => different (congrArg Instance.name same)
  rw [inStep.instances, List.lookup_append]
  have last : [((⟨aliasing.name, []⟩ : Instance), aliasPlace)].lookup ⟨name, arguments.map moved⟩ =
      none := by
    rw [lookup_cons_of_ne _ apart]
    rfl
  rw [last, Option.or_none]
  exact lookup_map_of_injective (Instance.rename_injective moved_injective) moved _ ⟨name, arguments⟩

/-- A new node has its new place. -/
theorem Aliasing.InStep.moved_size : moved graph.nodes.size = other.nodes.size := by
  rw [moved_of_ne (Nat.pos_iff_ne_zero.mp inStep.occupied), inStep.size]

/-- The same node is added to both graphs. -/
theorem Aliasing.InStep.allocate (kind : Kind) (text : String) :
    aliasing.InStep depth within (allocate kind text graph).2
      (TypeGraph.allocate (kind.rename moved) text other).2 :=
  { inStep with
    occupied := by
      show 0 < (graph.nodes.push _).size
      rw [Array.size_push]
      exact Nat.succ_pos _
    size := by
      show (other.nodes.push _).size = (graph.nodes.push _).size + 1
      rw [Array.size_push, Array.size_push, inStep.size]
    nodes := fun id => by
      show (other.nodes.push _)[moved id]? = ((graph.nodes.push _)[id]?).map _
      rw [Array.getElem?_push, Array.getElem?_push, ← inStep.moved_size, inStep.nodes id]
      by_cases last : id = graph.nodes.size
      · rw [if_pos last, if_pos (congrArg moved last)]
        rfl
      · rw [if_neg last, if_neg fun same => last (moved_injective same)]
    own := by
      show (other.nodes.push _)[aliasPlace]? = _
      exact getElem?_push_of_some _ inStep.own }

end InStep

/-! ### Steps that are alike -/

section Alike

variable {α β γ δ : Type}

/-- The two steps keep graphs in step, and the second answers what the first does, renamed. -/
def Aliasing.Alike (aliasing : Aliasing) (depth : Nat) (within : List String) (rename : α → β)
    (step : Building α) (step' : Building β) : Prop :=
  ∀ graph other, aliasing.InStep depth within graph other →
    aliasing.InStep depth within (step graph).2 (step' other).2 ∧
      (step' other).1 = rename (step graph).1

variable {aliasing : Aliasing} {depth : Nat} {within : List String} {rename : α → β} {again : γ → δ}

theorem Aliasing.Alike.pure {value : α} {value' : β} (same : value' = rename value) :
    aliasing.Alike depth within rename (pure value : Building α) (pure value' : Building β) :=
  fun _ _ inStep => ⟨inStep, same⟩

/-- **Steps that follow each other are alike if each of them is.** -/
theorem Aliasing.Alike.bind {step : Building α} {step' : Building β} {rest : α → Building γ}
    {rest' : β → Building δ} (first : aliasing.Alike depth within rename step step')
    (follows : ∀ value, aliasing.Alike depth within again (rest value) (rest' (rename value))) :
    aliasing.Alike depth within again (step >>= rest) (step' >>= rest') := by
  intro graph other inStep
  obtain ⟨between, answers⟩ := first graph other inStep
  have second := follows (step graph).1 (step graph).2 (step' other).2 between
  rw [← answers] at second
  exact second

/-- Steps that read their graphs see the same under the renaming. -/
theorem Aliasing.Alike.look {rest : Graph → Building γ} {rest' : Graph → Building δ}
    (follows : ∀ graph other, graph.Renames moved other →
      aliasing.Alike depth within again (rest graph) (rest' other)) :
    aliasing.Alike depth within again (get >>= rest) (get >>= rest') :=
  fun graph other inStep => follows graph other inStep.renames graph other inStep

theorem alike_allocate (kind : Kind) (text : String) :
    aliasing.Alike depth within moved (allocate kind text) (allocate (kind.rename moved) text) :=
  fun _ _ inStep => ⟨inStep.allocate kind text, inStep.moved_size.symm⟩

end Alike

/-! ### Keywords and literals -/

section Framework

variable {aliasing : Aliasing} {depth : Nat} {within : List String}

theorem alike_keywordType (keyword : Keyword) :
    aliasing.Alike depth within moved (keywordType keyword) (keywordType keyword) := by
  intro graph other inStep
  have looked := inStep.lookup_keywords keyword
  cases found : graph.keywords.lookup keyword with
  | some place =>
    rw [found] at looked
    rw [keywordType_of_some found, keywordType_of_some looked]
    exact ⟨inStep, rfl⟩
  | none =>
    rw [found] at looked
    rw [keywordType_of_none found, keywordType_of_none looked]
    refine ⟨{ inStep.allocate (.primitive keyword) keyword.text with keywords := ?_ },
      inStep.moved_size.symm⟩
    show (keyword, other.nodes.size) :: other.keywords = List.map _ ((keyword, _) :: _)
    rw [List.map_cons, inStep.keywords, ← inStep.moved_size]
    rfl

theorem alike_stringLiteralType (value : String) :
    aliasing.Alike depth within moved (stringLiteralType value) (stringLiteralType value) := by
  intro graph other inStep
  have looked := inStep.lookup_literals value
  cases found : graph.literals.lookup value with
  | some place =>
    rw [found] at looked
    rw [stringLiteralType_of_some found, stringLiteralType_of_some looked]
    exact ⟨inStep, rfl⟩
  | none =>
    rw [found] at looked
    rw [stringLiteralType_of_none found, stringLiteralType_of_none looked]
    refine ⟨{ inStep.allocate (.stringLiteral value) (literalText value) with literals := ?_ },
      inStep.moved_size.symm⟩
    show (value, other.nodes.size) :: other.literals = List.map _ ((value, _) :: _)
    rw [List.map_cons, inStep.literals, ← inStep.moved_size]
    rfl

/-! ### Nodes whose texts are put together -/

theorem alike_unresolvedType (text : String) :
    aliasing.Alike depth within moved (unresolvedType text) (unresolvedType text) :=
  alike_allocate .unresolved text

theorem alike_opaqueNode (text : String) :
    aliasing.Alike depth within moved (opaqueNode text) (opaqueNode text) :=
  alike_allocate .opaqueType text

theorem alike_arrayType (element : TypeId) :
    aliasing.Alike depth within moved (arrayType element) (arrayType (moved element)) := by
  refine .look fun graph other renames => ?_
  rw [renames.text]
  exact alike_allocate (.array element) _

theorem alike_tupleType (elements : List TypeId) :
    aliasing.Alike depth within moved (tupleType elements) (tupleType (elements.map moved)) := by
  refine .look fun graph other renames => ?_
  rw [joinedTexts_rename renames]
  exact alike_allocate (.tuple elements) _

theorem alike_unionType (members : List TypeId) :
    aliasing.Alike depth within moved (unionType members) (unionType (members.map moved)) := by
  refine .look fun graph other renames => ?_
  rw [joinedTexts_rename renames]
  exact alike_allocate (.union members) _

theorem alike_intersectionType (parts : List TypeId) :
    aliasing.Alike depth within moved (intersectionType parts)
      (intersectionType (parts.map moved)) := by
  refine .look fun graph other renames => ?_
  rw [joinedTexts_rename renames]
  exact alike_allocate (.intersection parts) _

theorem alike_objectType (shape : ObjectShape) :
    aliasing.Alike depth within moved (objectType shape) (objectType (shape.rename moved)) := by
  refine .look fun graph other renames => ?_
  rw [objectText_rename renames]
  exact alike_allocate (.object shape) _

theorem alike_unresolvedReference (name : String) (arguments : List TypeId) :
    aliasing.Alike depth within moved
      (get >>= fun graph => unresolvedType (graph.referenceText name arguments))
      (get >>= fun other => unresolvedType (other.referenceText name (arguments.map moved))) := by
  refine .look fun graph other renames => ?_
  rw [referenceText_rename renames]
  exact alike_unresolvedType _

/-! ### Types of the framework -/

theorem alike_recordType (key value : TypeId) :
    aliasing.Alike depth within moved (recordType key value)
      (recordType (moved key) (moved value)) := by
  refine .look fun graph other renames => ?_
  rw [renames.text, renames.text, literalKeys?_rename renames (renames.kind key)]
  cases graph.literalKeys? key with
  | none => exact alike_allocate (.object ⟨[], some value⟩) _
  | some names =>
    have keyed : (ObjectShape.rename moved ⟨names.map fun name => ⟨name, value, false⟩, none⟩) =
        ⟨names.map fun name => ⟨name, moved value, false⟩, none⟩ := by
      rw [ObjectShape.rename, List.map_map]
      rfl
    dsimp only
    rw [← keyed]
    exact alike_allocate (.object ⟨names.map fun name => ⟨name, value, false⟩, none⟩) _

theorem alike_presenceType (name : String) (change : PresenceChange) (target : TypeId) :
    aliasing.Alike depth within moved (presenceType name change target)
      (presenceType name change (moved target)) := by
  refine .look fun graph other renames => ?_
  have same := renames.kind target
  rw [renames.text, properties_rename renames same, index?_rename renames same]
  dsimp only
  rw [List.isEmpty_map, Option.isNone_map]
  split
  · exact alike_unresolvedType _
  · have changed : ((graph.properties target).map (Property.rename moved)).map change.apply =
        ((graph.properties target).map change.apply).map (Property.rename moved) := by
      rw [List.map_map, List.map_map]
      exact List.map_congr_left fun property _ => change.apply_rename moved property
    rw [changed]
    exact alike_allocate (.object ⟨(graph.properties target).map change.apply, graph.index? target⟩) _

theorem alike_nonNullableType (target : TypeId) :
    aliasing.Alike depth within moved (nonNullableType target) (nonNullableType (moved target)) := by
  refine .look fun graph other renames => ?_
  rw [unionMembers?_rename (renames.kind target)]
  cases graph.unionMembers? target with
  | none => exact .pure rfl
  | some members =>
    have kept := filter_kind_rename renames
      (fun kind => kind != .primitive .null && kind != .primitive .undefined) (fun kind => by
        simp only [bne, beq_eq_decide, Kind.rename_eq_primitive_iff]) members
    rw [Option.map_some]
    dsimp only
    rw [kept]
    cases members.filter fun member =>
        graph.kind member != .primitive .null && graph.kind member != .primitive .undefined with
    | nil => exact alike_unionType []
    | cons single rest =>
      cases rest with
      | nil => exact .pure rfl
      | cons second others => exact alike_unionType (single :: second :: others)

/-! ### Filters -/

theorem alike_keepProperties {keep keep' : TypeId → Building (Option TypeId)}
    (alike : ∀ id, aliasing.Alike depth within (Option.map moved) (keep id) (keep' (moved id)))
    (properties : List Property) :
    aliasing.Alike depth within (List.map (Property.rename moved)) (keepProperties keep properties)
      (keepProperties keep' (properties.map (Property.rename moved))) := by
  induction properties with
  | nil => exact .pure rfl
  | cons property rest ih =>
    rw [List.map_cons, keepProperties, keepProperties]
    refine .bind (alike property.type) fun kept => ?_
    cases kept with
    | none => exact ih
    | some type => exact .bind ih fun others => .pure rfl

theorem alike_filterWithin (wanted : Option String) (levels : Nat) (id : TypeId) :
    aliasing.Alike depth within (Option.map moved) (filterWithin wanted levels id)
      (filterWithin wanted levels (moved id)) := by
  induction levels generalizing id with
  | zero => exact .pure rfl
  | succ levels ih =>
    refine .look fun graph other renames => ?_
    have same := renames.kind id
    rw [isMarkedReference_rename renames same, literalProperty?_rename renames same,
      isStructured_rename same, properties_rename renames same]
    split
    · cases wanted with
      | none => exact .pure rfl
      | some visibility =>
        dsimp only
        split
        · exact .pure rfl
        · exact .pure rfl
    · split
      · exact .pure rfl
      · refine .bind (alike_keepProperties ih _) fun kept => ?_
        rw [List.isEmpty_map]
        split
        · exact .pure rfl
        · exact .bind (alike_objectType ⟨kept, none⟩) fun type => .pure rfl

theorem alike_filteredType (api filter : TypeId) :
    aliasing.Alike depth within moved (filteredType api filter)
      (filteredType (moved api) (moved filter)) := by
  refine .look fun graph other renames => ?_
  rw [isStructured_rename (renames.kind api), literalProperty?_rename renames (renames.kind filter)]
  split
  · refine .bind (alike_filterWithin _ _ api) fun kept => ?_
    cases kept with
    | none => exact alike_allocate (.object ⟨[], none⟩) _
    | some type => exact .pure rfl
  · have texts := referenceText_rename renames "FilterApi" [api, filter]
    rw [List.map_cons, List.map_singleton] at texts
    rw [texts]
    exact alike_unresolvedType _

/-- **A name that no file declares.** -/
theorem alike_providedType (name : String) (arguments : List TypeId) :
    aliasing.Alike depth within moved (providedType name arguments)
      (providedType name (arguments.map moved)) := by
  have unresolved : aliasing.Alike depth within moved _ _ := alike_unresolvedReference name arguments
  by_cases single : arguments.length = 1
  · obtain ⟨target, rfl⟩ := List.length_eq_one_iff.mp single
    rw [List.map_singleton] at unresolved ⊢
    rw [providedType_single, providedType_single]
    split
    · exact alike_arrayType target
    · split
      · exact alike_nonNullableType target
      · cases PresenceChange.ofName? name with
        | some change => exact alike_presenceType name change target
        | none => exact unresolved
  · by_cases pair : arguments.length = 2
    · obtain ⟨first, second, rfl⟩ := List.length_eq_two.mp pair
      rw [List.map_cons, List.map_singleton] at unresolved ⊢
      rw [providedType_pair, providedType_pair]
      split
      · exact alike_recordType first second
      · split
        · exact alike_filteredType first second
        · exact unresolved
    · rw [providedType_other name single pair, providedType_other name (by rwa [List.length_map])
        (by rwa [List.length_map])]
      exact unresolved

end Framework

end SwiftBindings.TypeGraph
