/-
**Names of fields and keys on the wire.**

The fields of a validator carry the names of properties, and the properties of a struct the names of
fields, in order; neither reduction nor rendering puts two lists of them together. So what
`Graph.RepeatsKey` says of the properties of types is handed on: a name stands twice in a validator, or
as a key in a struct, only where a mapping lists it twice.

`Shape.Repeats` looks for the name through a whole shape, since the fields of an object have validators
of their own. `Excuses` says of a visit that whatever repeats a name in its answer is excused by such a
mapping; the laws of rendering trace a struct back to the shape it was rendered from.

**The main statement.** `repeated_names_of_mapping`: for any exports, the three cases of a name that
comes twice. `repeatedKeys` is a file where it happens.
-/

import SwiftBindings.Api.Generation
import SwiftBindings.Proofs.Api.Chains
import SwiftBindings.Proofs.Reduction.Visits
import SwiftBindings.Proofs.Swift.GeneratedFile
import SwiftBindings.Proofs.TypeGraph.PropertyNames

namespace SwiftBindings

open TypeGraph

/-! ### Fields of one name -/

/-- The name stands twice among the fields of an object somewhere in the shape. -/
inductive Shape.Repeats (name : String) : Shape → Prop where
  | here {fields : List Field} (twice : List.Duplicate name (fields.map Field.name)) :
    Repeats name (.object fields)
  | field {fields : List Field} {field : Field} (member : field ∈ fields)
      (inner : Repeats name field.schema.shape) : Repeats name (.object fields)
  | element {element : Validator} (inner : Repeats name element.shape) : Repeats name (.array element)
  | key {key value : Validator} (inner : Repeats name key.shape) :
    Repeats name (.record (some key) value)
  | value {key : Option Validator} {value : Validator} (inner : Repeats name value.shape) :
    Repeats name (.record key value)

/-- The name stands twice among the fields of a list, or of an object within one of them. -/
def RepeatsAmong (name : String) (fields : List Field) : Prop :=
  List.Duplicate name (fields.map Field.name) ∨ ∃ field ∈ fields, field.schema.shape.Repeats name

theorem Shape.repeats_object {name : String} {fields : List Field} :
    (Shape.object fields).Repeats name ↔ RepeatsAmong name fields := by
  constructor
  · intro repeats
    cases repeats with
    | here twice => exact .inl twice
    | field member inner => exact .inr ⟨_, member, inner⟩
  · rintro (twice | ⟨field, member, inner⟩)
    · exact .here twice
    · exact .field member inner

/-! ### Reduction -/

namespace Reduction

variable {graph : Graph} {name : String} {reduce : TypeId → Visit Validator}

/-- Whatever a visit answers, it repeats the name only if the graph has a mapping that does. -/
def Excuses (graph : Graph) (name : String) (visit : Visit Validator) : Prop :=
  ∀ trail, (visit trail).1.shape.Repeats name → graph.RepeatsKey name

theorem Excuses.gap (id : TypeId) (gap : Gap) : Excuses graph name (pure (gapOf graph id gap)) :=
  fun _ repeats => nomatch repeats

/-- An atom has no fields. -/
theorem not_repeats_atom {id : TypeId} {validator : Validator}
    (atom : atomValidator? graph id = some validator) : ¬validator.shape.Repeats name := by
  intro repeats
  rw [atomValidator?] at atom
  split at atom
  · cases atom
    cases repeats
  · split at atom
    · rename_i shape plain
      cases atom
      rw [Validator.shape_ofShape] at repeats
      generalize graph.kind id = kind at plain
      unfold primitiveShape? at plain
      split at plain <;> cases plain <;> cases repeats
    · split at atom <;> cases atom <;> cases repeats

theorem excuses_reduceFields (each : ∀ id, Excuses graph name (reduce id)) (properties : List Property)
    (trail : Trail) {field : Field} (member : field ∈ (reduceFields reduce properties trail).1)
    (repeats : field.schema.shape.Repeats name) : graph.RepeatsKey name := by
  induction properties generalizing trail with
  | nil => cases member
  | cons property rest ih =>
    rw [reduceFields_cons rfl rfl] at member
    rcases List.mem_cons.mp member with rfl | member
    · exact each property.type trail repeats
    · exact ih _ member

theorem excuses_classifySingle (only : graph.RepeatsOnlyKeys name)
    (each : ∀ id, Excuses graph name (reduce id)) (id : TypeId) :
    Excuses graph name (classifySingle graph reduce id) := by
  intro trail repeats
  cases atom : atomValidator? graph id with
  | some validator =>
    rw [classifySingle_atom atom] at repeats
    exact absurd repeats (not_repeats_atom atom)
  | none =>
    cases list : graph.arrayElement? id with
    | some element =>
      rw [classifySingle_array atom list] at repeats
      cases repeats with
      | element inner => exact each element trail inner
    | none =>
      cases index : graph.index? id with
      | some value =>
        rw [classifySingle_record atom list index] at repeats
        cases repeats with
        | value inner => exact each value trail inner
      | none =>
        by_cases present : fieldProperties graph id = []
        · rw [classifySingle_empty atom list index present] at repeats
          cases repeats
        · rw [classifySingle_object atom list index present] at repeats
          rcases Shape.repeats_object.mp repeats with twice | ⟨field, member, inner⟩
          · rw [names_reduceFields] at twice
            exact only.names (twice.mono_sublist (List.filter_sublist.map _))
          · exact excuses_reduceFields each _ _ member inner

theorem excuses_classify (only : graph.RepeatsOnlyKeys name)
    (each : ∀ id, Excuses graph name (reduce id)) (id : TypeId) :
    Excuses graph name (classify graph reduce id) := by
  intro trail repeats
  cases found : graph.unionMembers? id with
  | none =>
    rw [classify_single found] at repeats
    exact excuses_classifySingle only each id trail repeats
  | some members =>
    generalize present : members.filter (fun member =>
      !isAbsence (graph.kind member) && !isNull (graph.kind member)) = left
    match left with
    | [] =>
      rw [classify_union_none found present] at repeats
      cases repeats
    | [single] =>
      rw [classify_union_one found present] at repeats
      exact each single trail repeats
    | first :: second :: rest =>
      rw [classify_union_many found present (Nat.le_add_left 2 _), Validator.shape_admitting,
        unionValidator] at repeats
      split at repeats
      · cases repeats
      · split at repeats
        · cases repeats
        · split at repeats <;> cases repeats

theorem excuses_reduceWithin (only : graph.RepeatsOnlyKeys name) (levels : Nat) (id : TypeId) :
    Excuses graph name (reduceWithin graph levels id) := by
  induction levels generalizing id with
  | zero => exact .gap id .depthLimit
  | succ levels ih =>
    intro trail repeats
    by_cases shallow : trail.depth < maximalNesting
    · by_cases met : id ∈ trail.chain
      · rw [reduceWithin_cycle levels shallow met] at repeats
        cases repeats
      · rw [reduceWithin_succ levels shallow met] at repeats
        exact excuses_classify only ih id _ repeats
    · rw [reduceWithin_deep levels (Nat.le_of_not_lt shallow)] at repeats
      cases repeats

end Reduction

/-- A validator repeats a name only where a mapping of the graph does. -/
theorem repeatsKey_of_reduce {graph : Graph} {name : String} (only : graph.RepeatsOnlyKeys name)
    {id : TypeId} (repeats : (Reduction.reduce graph id).shape.Repeats name) :
    graph.RepeatsKey name :=
  Reduction.excuses_reduceWithin only _ id .empty repeats

/-! ### Structs -/

namespace Swift

/-- The keys on the wire of a struct. -/
def Struct.keys (declared : Struct) : List String :=
  declared.properties.map Property.key

/-- The declaration is a struct with two properties for one key. -/
def Declaration.Repeats (name : String) : Declaration → Prop
  | .struct declared => List.Duplicate name declared.keys
  | _ => False

/-- Some struct of the registry has two properties for one key. -/
def Registry.Repeats (name : String) (registry : Registry) : Prop :=
  ∃ declaration ∈ registry.declarations, declaration.Repeats name

section Rendering

variable {name : String} {registry : Registry}

theorem Declaration.repeats_rename (called : String) (declaration : Declaration) :
    (declaration.rename called).Repeats name ↔ declaration.Repeats name := by
  cases declaration <;> exact Iff.rfl

theorem Registry.Repeats.of_register {declaration : Declaration}
    (repeats : (registry.register declaration).2.Repeats name) :
    registry.Repeats name ∨ declaration.Repeats name := by
  obtain ⟨attempt, _, same⟩ := registry.register_eq declaration
  rw [same] at repeats
  obtain ⟨other, member, inner⟩ := repeats
  rw [Registry.insert] at member
  split at member
  · rcases List.mem_append.mp member with member | member
    · exact .inl ⟨other, member, inner⟩
    · rw [List.mem_singleton.mp member] at inner
      exact .inr ((Declaration.repeats_rename _ declaration).mp inner)
  · exact .inl ⟨other, member, inner⟩

variable {path : List String} {side : Side} {taken : List String}

/-- Properties carry the names of their fields, in order. -/
theorem Registry.keys_renderProperties (fields : List Field) :
    (registry.renderProperties path side taken fields).1.map Property.key = fields.map Field.name := by
  induction fields generalizing registry taken with
  | nil => rfl
  | cons field rest ih =>
    obtain ⟨key, optional, nullable, shape, absent, null⟩ := field
    rw [Registry.renderProperties]
    exact congrArg (key :: ·) ih

/-- The struct of fields repeats the names that the fields repeat. -/
theorem Registry.Repeats.of_struct {fields : List Field} {called : String}
    (nested : (registry.renderProperties path side taken fields).2.Repeats name →
      registry.Repeats name ∨ ∃ field ∈ fields, field.schema.shape.Repeats name)
    (repeats : ((registry.renderProperties path side taken fields).2.register (.struct
      ⟨called, side, (registry.renderProperties path side taken fields).1⟩)).2.Repeats name) :
    registry.Repeats name ∨ RepeatsAmong name fields := by
  rcases repeats.of_register with repeats | twice
  · exact (nested repeats).imp_right .inr
  · have keys : List.Duplicate name
        ((registry.renderProperties path side taken fields).1.map Property.key) := twice
    rw [Registry.keys_renderProperties] at keys
    exact .inr (.inl keys)

mutual

/-- **Rendering a shape adds a struct that repeats a key only where the shape repeats the name.** -/
theorem Registry.Repeats.of_renderShape {registry : Registry} {path : List String} :
    ∀ {shape : Shape}, (registry.renderShape path side shape).2.Repeats name →
      registry.Repeats name ∨ shape.Repeats name
  | .string, repeats => by
    rw [Registry.renderShape] at repeats
    exact .inl repeats
  | .number, repeats => by
    rw [Registry.renderShape] at repeats
    exact .inl repeats
  | .boolean, repeats => by
    rw [Registry.renderShape] at repeats
    exact .inl repeats
  | .id none, repeats => by
    rw [Registry.renderShape] at repeats
    exact .inl repeats
  | .id (some table), repeats => by
    rw [Registry.renderShape] at repeats
    exact repeats.of_register.imp_right False.elim
  | .array ⟨shape, _, _⟩, repeats => by
    rw [Registry.renderShape] at repeats
    exact (Registry.Repeats.of_renderShape repeats).imp_right .element
  | .record _ ⟨shape, _, _⟩, repeats => by
    rw [Registry.renderShape] at repeats
    exact (Registry.Repeats.of_renderShape repeats).imp_right .value
  | .object fields, repeats => by
    rw [Registry.renderShape] at repeats
    exact (Registry.Repeats.of_struct Registry.Repeats.of_renderProperties repeats).imp_right
      Shape.repeats_object.mpr
  | .enumeration values, repeats => by
    rw [Registry.renderShape] at repeats
    exact repeats.of_register.imp_right False.elim
  | .any, repeats => by
    cases side <;> exact .inl repeats
  | .unknown _ _, repeats => by
    cases side <;> exact .inl repeats

theorem Registry.Repeats.of_renderProperties {registry : Registry} {path taken : List String} :
    ∀ {fields : List Field}, (registry.renderProperties path side taken fields).2.Repeats name →
      registry.Repeats name ∨ ∃ field ∈ fields, field.schema.shape.Repeats name
  | [], repeats => by
    rw [Registry.renderProperties] at repeats
    exact .inl repeats
  | ⟨key, optional, nullable, ⟨shape, absent, null⟩⟩ :: rest, repeats => by
    rw [Registry.renderProperties] at repeats
    rcases Registry.Repeats.of_renderProperties repeats with repeats | ⟨field, member, inner⟩
    · exact (Registry.Repeats.of_renderShape repeats).imp_right fun inner =>
        ⟨_, List.mem_cons_self, inner⟩
    · exact .inr ⟨field, List.mem_cons_of_mem _ member, inner⟩

end

theorem Registry.Repeats.of_renderStruct {fields : List Field}
    (repeats : (registry.renderStruct fields path side).2.Repeats name) :
    registry.Repeats name ∨ RepeatsAmong name fields :=
  Registry.Repeats.of_struct Registry.Repeats.of_renderProperties repeats

end Rendering

end Swift

/-! ### The structs of an interface -/

namespace Api

open Swift

variable {name : String} {registry : Registry}

/-- A validator of the function repeats the name. -/
def FunctionShape.Repeats (name : String) (shape : FunctionShape) : Prop :=
  shape.arguments.shape.Repeats name ∨ shape.result.shape.Repeats name

/-- The fields of arguments are those of their validator. -/
theorem FunctionShape.repeats_argumentFields {shape : FunctionShape}
    (repeats : RepeatsAmong name shape.argumentFields) : shape.arguments.shape.Repeats name := by
  rw [FunctionShape.argumentFields] at repeats
  split at repeats
  · rename_i fields same
    rw [same]
    exact Shape.repeats_object.mpr repeats
  · rcases repeats with twice | ⟨field, member, _⟩
    · cases twice
    · cases member

theorem FunctionShape.repeats_resultFields? {shape : FunctionShape} {fields : List Field}
    (found : shape.resultFields? = some fields) (repeats : RepeatsAmong name fields) :
    shape.result.shape.Repeats name := by
  rw [FunctionShape.resultFields?] at found
  split at found
  · rename_i others same
    split at found
    · cases found
    · cases found
      rw [same]
      exact Shape.repeats_object.mpr repeats
  · cases found

theorem FunctionShape.repeats_register {shape : FunctionShape}
    (repeats : (shape.register registry).2.Repeats name) :
    registry.Repeats name ∨ shape.Repeats name := by
  have arguments : (registry.renderStruct shape.argumentFields (shape.path ++ ["Args"])
      .encode).2.Repeats name → registry.Repeats name ∨ shape.Repeats name := fun repeats =>
    repeats.of_renderStruct.imp_right fun among => .inl (shape.repeats_argumentFields among)
  rw [FunctionShape.register] at repeats
  cases found : shape.resultFields? with
  | some fields =>
    rw [found] at repeats
    rcases Registry.Repeats.of_renderStruct repeats with repeats | among
    · exact arguments repeats
    · exact .inr (.inr (FunctionShape.repeats_resultFields? found among))
  | none =>
    rw [found] at repeats
    rcases Registry.Repeats.of_renderShape repeats with repeats | inner
    · exact arguments repeats
    · exact .inr (.inr inner)

theorem repeats_registerAll {shapes : List FunctionShape}
    (repeats : (registerAll registry shapes).2.Repeats name) :
    registry.Repeats name ∨ ∃ shape ∈ shapes, shape.Repeats name := by
  induction shapes generalizing registry with
  | nil => exact .inl repeats
  | cons shape rest ih =>
    rcases ih repeats with repeats | ⟨other, member, inner⟩
    · exact (FunctionShape.repeats_register repeats).imp_right fun inner =>
        ⟨shape, List.mem_cons_self, inner⟩
    · exact .inr ⟨other, List.mem_cons_of_mem _ member, inner⟩

/-- A struct of a generated file repeats a key only where a validator of a function repeats the
name. -/
theorem repeats_bindings {source : String} {shapes : List FunctionShape} {declared : Struct}
    (member : declared ∈ (bindings source shapes).structs) (twice : List.Duplicate name declared.keys) :
    ∃ shape ∈ shapes, shape.Repeats name := by
  have held : Declaration.struct declared ∈ (bindings source shapes).declarations :=
    List.mem_append_right _ (List.mem_append_right _ (List.mem_map_of_mem member))
  have registered : (registerAll .empty shapes).2.Repeats name :=
    ⟨_, (Registry.declarations_file_perm _ _ _).mem_iff.mp held, twice⟩
  refine (repeats_registerAll registered).resolve_left ?_
  rintro ⟨_, none, _⟩
  cases none

/-- A struct that is generated from a declaration file repeats a key only where a type of the graph is
reduced to a validator that repeats the name. -/
theorem repeats_generate {path source name : String} {roots : List String} {selection : Selection}
    {symbols : Symbols} {generated : Generated} (read : Declared.readSymbols source = .ok symbols)
    (made : generate path source roots selection = .ok generated) {declared : Struct}
    (member : declared ∈ generated.file.structs) (twice : List.Duplicate name declared.keys) :
    ∃ id, (Reduction.reduce (graphAfter symbols roots .initial) id).shape.Repeats name := by
  obtain ⟨⟨functions, graph⟩, discovered, made⟩ := bind_eq_ok made
  obtain ⟨_, again, discovered⟩ := bind_eq_ok discovered
  cases read.symm.trans again
  rw [← functionsOfRoots_graph discovered]
  dsimp only at made
  split at made
  · cases made
  · cases made
    obtain ⟨shape, listed, repeats⟩ := repeats_bindings member twice
    obtain ⟨function, _, rfl⟩ := List.mem_map.mp listed
    rcases repeats with inner | inner
    · exact ⟨function.arguments, inner⟩
    · exact ⟨function.result, inner⟩

/-- **A name comes twice only from the keys of a mapping.** After any exports, a property name stands
twice in some type exactly where some mapping lists it twice; then alone can a validator of a type
have two fields of that name, or a struct of a generated interface two properties for that key. -/
theorem repeated_names_of_mapping (symbols : Symbols) (exports : List String) (name : String) :
    ((∃ id, List.Duplicate name ((graphAfter symbols exports .initial).names id)) ↔
      (graphAfter symbols exports .initial).RepeatsKey name) ∧
    (∀ id, (Reduction.reduce (graphAfter symbols exports .initial) id).shape.Repeats name →
      (graphAfter symbols exports .initial).RepeatsKey name) ∧
    (∀ path source selection generated, Declared.readSymbols source = .ok symbols →
      generate path source exports selection = .ok generated →
      (∃ declared ∈ generated.file.structs, List.Duplicate name declared.keys) →
      (graphAfter symbols exports .initial).RepeatsKey name) := by
  have only := graphAfter_repeatsOnlyKeys symbols exports name
  refine ⟨duplicate_names_iff symbols exports name, fun _ repeats => repeatsKey_of_reduce only repeats,
    ?_⟩
  rintro path source selection generated read made ⟨declared, member, twice⟩
  obtain ⟨_, repeats⟩ := repeats_generate read made member twice
  exact repeatsKey_of_reduce only repeats

/-- A value whose type is a mapping that lists a key twice. -/
def repeatedKeys : Symbols := .ofItems
  [.value "a" (.reference "Record" [.union [.stringLiteral "a", .stringLiteral "a"],
    .keyword .number]) true]

/-- The mapping has two properties of one name, and its validator two fields. -/
theorem repeatedKeys_stay :
    (exportType? repeatedKeys "a" .initial).1 = some 4 ∧
      ¬((graphAfter repeatedKeys ["a"] .initial).names 4).Nodup ∧
      (Reduction.reduce (graphAfter repeatedKeys ["a"] .initial) 4).shape = .object
        [⟨"a", false, false, .ofShape .number⟩, ⟨"a", false, false, .ofShape .number⟩] :=
  ⟨by decide, by decide, rfl⟩

/-- The two fields of that validator lead to the mapping. -/
theorem repeatedKeys_found : (graphAfter repeatedKeys ["a"] .initial).RepeatsKey "a" := by
  have twice : (Reduction.reduce (graphAfter repeatedKeys ["a"] .initial) 4).shape.Repeats "a" :=
    .here (.cons_mem List.mem_cons_self)
  exact (repeated_names_of_mapping repeatedKeys ["a"] "a").2.1 4 twice

end Api

end SwiftBindings
