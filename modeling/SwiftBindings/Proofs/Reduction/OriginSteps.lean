/-
**Steps that keep origins.**

In a traced graph all that is seen of a type are nodes: its members, its properties, the type of its
further properties (`Graph.Closed.property_lt`). So the steps that build types of the framework lead
from traced graphs to traced graphs (`Traces`), and a type that is called as an identifier type is has
that name as its text (`traces_providedType`).
-/

import SwiftBindings.Proofs.Reduction.Origin

set_option linter.unusedSectionVars false

namespace SwiftBindings.TypeGraph

open Declared Reduction

/-! ### Types of the framework -/

section Framework

variable {before : Graph → Prop}

theorem identifierArgument?_arrayText (element : String) :
    identifierArgument? (arrayText element) = none := by
  rw [arrayText]
  split
  · have closes : ")[]".toList.getLast? = some ']' := rfl
    exact identifierArgument?_append _ closes (by decide)
  · have closes : "[]".toList.getLast? = some ']' := rfl
    exact identifierArgument?_append _ closes (by decide)

theorem identifierArgument?_objectText (graph : Graph) (shape : ObjectShape) :
    identifierArgument? (graph.objectText shape) = none := by
  have closes : " \x7d".toList.getLast? = some '\x7d' := rfl
  rw [Graph.objectText]
  generalize (shape.properties.map graph.propertyText ++ _) = parts
  show identifierArgument? (if parts.isEmpty then "\x7b\x7d"
    else "\x7b " ++ "; ".intercalate parts ++ " \x7d") = none
  split
  · decide
  · exact identifierArgument?_append _ closes (by decide)

theorem identifierArgument?_typeof (name : String) : identifierArgument? ("typeof " ++ name) = none :=
  identifierArgument?_of_front String.toList_append (by decide) (by decide : ' ' ∈ "typeof ".toList)
    (by decide)

/-- A node that is known by a name with arguments. -/
theorem traces_named {seen : Graph} (kind : Kind) (name : String) (arguments : List TypeId)
    (inside : ∀ part ∈ kind.parts ++ arguments, part < seen.nodes.size)
    (nominal : namesIdentifier name.toList = true → kind.isNominal = true) :
    Traces (fun graph => graph = seen) (allocate kind (seen.referenceText name arguments))
      fun graph id => graph.RefersTo id name arguments := by
  rintro graph traced rfl
  have parts : ∀ part ∈ kind.parts, part < graph.nodes.size :=
    fun part member => inside part (List.mem_append_left _ member)
  have held : ∀ argument ∈ arguments, argument < graph.nodes.size :=
    fun argument member => inside argument (List.mem_append_right _ member)
  have extended := graph.extends_allocate kind (graph.referenceText name arguments)
  have found : (allocate kind (graph.referenceText name arguments) graph).2.nodes[graph.nodes.size]? =
      some ⟨kind, graph.referenceText name arguments⟩ := Array.getElem?_push_size
  have same := extended.nodes.keepsTexts.referenceText_eq name held
  exact ⟨traced.push parts (.reference held nominal), extended,
    fun argument member => extended.nodes.lt_size (held argument member), kind,
    found.trans (congrArg (fun text => some (Node.mk kind text)) same.symm), nominal⟩

theorem traces_arrayType {element : TypeId} :
    Traces (fun graph => element < graph.nodes.size) (arrayType element) fun graph id =>
      graph.Stands id (.array element) := by
  refine .look fun seen traced inside => ?_
  have plain := identifierArgument?_arrayText (seen.text element)
  refine (traces_allocate ?_ fun _ _ _ => .plain plain).conclude fun _ _ held => ⟨_, plain, held⟩
  rintro graph _ rfl part member
  rw [List.mem_singleton.mp member]
  exact inside

theorem traces_tupleType {elements : List TypeId} :
    Traces (fun graph => ∀ id ∈ elements, id < graph.nodes.size) (tupleType elements) fun graph id =>
      id < graph.nodes.size := by
  refine .look fun seen traced inside => ?_
  have closes : "]".toList.getLast? = some ']' := rfl
  have plain : identifierArgument? ("[" ++ seen.joinedTexts elements ", " ++ "]") = none :=
    identifierArgument?_append _ closes (by decide)
  refine (traces_allocate ?_ fun _ _ _ => .plain plain).conclude
    fun _ _ held => lt_size_of_getElem? held.1
  rintro graph _ rfl part member
  exact inside part member

theorem traces_unionType {members : List TypeId} :
    Traces (fun graph => ∀ id ∈ members, id < graph.nodes.size) (unionType members) fun graph id =>
      ∃ text, graph.nodes[id]? = some ⟨.union members, text⟩ ∧ ∀ member ∈ members, member < id := by
  refine .look fun seen traced inside => ?_
  refine (traces_allocate ?_ fun _ _ _ => .union _ _).conclude fun _ _ held => ⟨_, held⟩
  rintro graph _ rfl part member
  exact inside part member

theorem traces_intersectionType {parts : List TypeId} :
    Traces (fun graph => ∀ id ∈ parts, id < graph.nodes.size) (intersectionType parts)
      fun graph id => ∃ text, graph.nodes[id]? = some ⟨.intersection parts, text⟩ := by
  refine .look fun seen traced inside => ?_
  refine (traces_allocate ?_ ?_).conclude fun _ _ held => ⟨_, held.1⟩
  · rintro graph _ rfl part member
    exact inside part member
  · rintro graph _ rfl
    exact .intersection parts

theorem traces_objectType {shape : ObjectShape} :
    Traces (fun graph => ∀ part ∈ (Kind.object shape).parts, part < graph.nodes.size)
      (objectType shape) fun graph id => graph.Stands id (.object shape) := by
  refine .look fun seen traced inside => ?_
  have plain := identifierArgument?_objectText seen shape
  refine (traces_allocate ?_ fun _ _ _ => .plain plain).conclude fun _ _ held => ⟨_, plain, held⟩
  rintro graph _ rfl part member
  exact inside part member

theorem traces_opaqueNode (text : String) :
    Traces before (opaqueNode text) fun graph id => id < graph.nodes.size :=
  (traces_leaf rfl fun _ _ _ => .source text (.inl rfl)).conclude fun _ _ => lt_size_of_getElem?

theorem Graph.RefersTo.lt_size {graph : Graph} {id : TypeId} {name : String}
    {arguments : List TypeId} (refers : graph.RefersTo id name arguments) :
    id < graph.nodes.size := by
  obtain ⟨kind, found, _⟩ := refers.node
  exact lt_size_of_getElem? found

theorem traces_unresolvedType (name : String) (arguments : List TypeId) :
    Traces (fun graph => ∀ id ∈ arguments, id < graph.nodes.size)
      (get >>= fun seen => unresolvedType (seen.referenceText name arguments))
      fun graph id => graph.RefersTo id name arguments :=
  .look fun _ _ inside => traces_named .unresolved name arguments inside fun _ => rfl

/-- The text of a mapping names no identifiers. -/
theorem identifierArgument?_record (key value : String) :
    identifierArgument? ("Record<" ++ key ++ ", " ++ value ++ ">") = none := by
  have same : "Record<" ++ key ++ ", " ++ value ++ ">" =
      "Record" ++ "<" ++ (key ++ ", " ++ value) ++ ">" := by
    simp only [String.append_assoc]
    rfl
  rw [same]
  exact identifierArgument?_reference_none (by decide) (by decide) _

theorem traces_recordType {key value : TypeId} :
    Traces (fun graph => key < graph.nodes.size ∧ value < graph.nodes.size) (recordType key value)
      fun graph id => ∃ shape, graph.Stands id (.object shape) ∧
        (graph.kind key = .primitive .string → shape = ⟨[], some value⟩) := by
  intro graph traced given
  have plain := identifierArgument?_record (graph.text key) (graph.text value)
  have inside : ∀ part ∈ (Kind.object (recordShape graph key value)).parts,
      part < graph.nodes.size :=
    fun part member => eq_of_mem_recordShape member ▸ given.2
  have allocates : Traces (fun other => other = graph)
      (allocate (.object (recordShape graph key value))
        ("Record<" ++ graph.text key ++ ", " ++ graph.text value ++ ">")) fun other id =>
          other.Stands id (.object (recordShape graph key value)) :=
    (traces_allocate (fun _ _ same => same ▸ inside) fun _ _ _ => .plain plain).conclude
      fun _ _ held => ⟨_, plain, held⟩
  obtain ⟨pushed, extended, stands⟩ := allocates graph traced rfl
  rw [recordType_run]
  refine ⟨pushed, extended, _, stands, fun isString => ?_⟩
  obtain ⟨node, held⟩ := exists_node given.1
  rw [Graph.kind_of_getElem? (extended.nodes _ _ held), ← Graph.kind_of_getElem? held] at isString
  rw [recordShape, Graph.literalKeys?, isString]

/-- No type that changes the presence of properties is called as an identifier type is. -/
theorem presence_other {name : String} {change : PresenceChange}
    (found : PresenceChange.ofName? name = some change) :
    namesIdentifier name.toList = false ∧ '<' ∉ name.toList := by
  unfold PresenceChange.ofName? at found
  split at found
  · decide
  · decide
  · decide
  · cases found

theorem traces_presenceType {name : String} {change : PresenceChange}
    (found : PresenceChange.ofName? name = some change) {target : TypeId} :
    Traces (fun graph => target < graph.nodes.size) (presenceType name change target)
      fun graph id => id < graph.nodes.size := by
  refine .look fun seen traced inside => ?_
  have plain : identifierArgument? (name ++ "<" ++ seen.text target ++ ">") = none :=
    identifierArgument?_reference_none (presence_other found).2 (presence_other found).1 _
  refine .ite ?_ ?_
  · exact (traces_leaf rfl fun _ _ _ => .plain plain).conclude fun _ _ => lt_size_of_getElem?
  · refine (traces_allocate ?_ fun _ _ _ => .plain plain).conclude
      fun _ _ held => lt_size_of_getElem? held.1
    rintro graph _ rfl part member
    rcases List.mem_append.mp member with member | member
    · rw [List.map_map] at member
      obtain ⟨property, held, rfl⟩ := List.mem_map.mp member
      exact traced.closed.property_lt target property held
    · exact traced.closed.index_lt target part (Option.mem_toList.mp member)

theorem traces_nonNullableType {target : TypeId} :
    Traces (fun graph => target < graph.nodes.size) (nonNullableType target)
      fun graph id => id < graph.nodes.size := by
  refine .look fun seen traced inside => ?_
  cases members : seen.unionMembers? target with
  | none => exact .pure fun graph _ same => same ▸ inside
  | some alternatives =>
    dsimp only
    have all := traced.closed.unionMember_lt members
    generalize kept : alternatives.filter _ = left
    have held : ∀ member ∈ left, member < seen.nodes.size := by
      intro member picked
      rw [← kept] at picked
      exact all member (List.mem_filter.mp picked).1
    split
    · exact .pure fun graph _ same => same ▸ held _ List.mem_cons_self
    · exact traces_unionType.imp (fun graph same => same ▸ held) fun _ _ ⟨_, found, _⟩ =>
        lt_size_of_getElem? found

theorem traces_keepProperties {keep : TypeId → Building (Option TypeId)}
    (traces : ∀ id, Traces (fun graph => id < graph.nodes.size) (keep id)
      fun graph kept => ∀ type ∈ kept, type < graph.nodes.size) (properties : List Property) :
    Traces (fun graph => ∀ property ∈ properties, property.type < graph.nodes.size)
      (keepProperties keep properties)
      fun graph kept => ∀ property ∈ kept, property.type < graph.nodes.size := by
  induction properties with
  | nil => exact .pure fun _ _ given => given
  | cons property rest ih =>
    rw [keepProperties]
    refine ((traces property.type).weaken fun graph given => given property List.mem_cons_self).bind
      fun kept => ?_
    cases kept with
    | none => exact ih.weaken fun graph given other member => given.1 other (List.mem_cons_of_mem _ member)
    | some type =>
      refine .bind (ih.weaken fun graph given other member =>
        given.1 other (List.mem_cons_of_mem _ member)) fun others => ?_
      exact .pure fun graph _ given =>
        List.forall_mem_cons.mpr ⟨given.1.2 type rfl, given.2⟩

theorem traces_filterWithin (wanted : Option String) (levels : Nat) (id : TypeId) :
    Traces (fun graph => id < graph.nodes.size) (filterWithin wanted levels id)
      fun graph kept => ∀ type ∈ kept, type < graph.nodes.size := by
  induction levels generalizing id with
  | zero => exact .pure fun _ _ _ type found => by cases found
  | succ levels ih =>
    refine .look fun seen traced inside => ?_
    refine .ite ?_ (.ite ?_ ?_)
    · cases wanted with
      | none => exact .pure fun graph _ same type found => by cases found; exact same ▸ inside
      | some visibility =>
        refine .pure fun graph _ same type found => ?_
        split at found
        · cases found
          exact same ▸ inside
        · cases found
    · exact .pure fun _ _ _ type found => by cases found
    · refine .using (fun graph => ∀ property ∈ seen.properties id, property.type < graph.nodes.size)
        (traced.closed.property_lt id) (.bind (traces_keepProperties ih _) fun kept => ?_)
      refine .ite (.pure fun _ _ _ type found => by cases found) ?_
      refine .bind (traces_objectType.weaken fun graph given part member => ?_) fun added => ?_
      · rw [Kind.parts, Option.toList_none, List.append_nil] at member
        obtain ⟨property, held, rfl⟩ := List.mem_map.mp member
        exact given.2 property held
      · refine .pure fun graph _ given type found => ?_
        cases found
        exact given.2.lt_size

/-- What is known of the type of a name: for a name of an identifier type, its text. -/
def Graph.Names (graph : Graph) (id : TypeId) (name : String) (arguments : List TypeId) : Prop :=
  id < graph.nodes.size ∧ (namesIdentifier name.toList = true → graph.RefersTo id name arguments)

theorem Graph.RefersTo.names {graph : Graph} {id : TypeId} {name : String}
    {arguments : List TypeId} (refers : graph.RefersTo id name arguments) :
    graph.Names id name arguments :=
  ⟨refers.lt_size, fun _ => refers⟩

theorem traces_filteredType {api filter : TypeId} :
    Traces (fun graph => api < graph.nodes.size ∧ filter < graph.nodes.size)
      (filteredType api filter) fun graph id => id < graph.nodes.size := by
  refine .look fun seen traced inside => ?_
  refine .ite ?_ ?_
  · refine .using (fun graph => api < graph.nodes.size) inside.1
      (.bind (traces_filterWithin _ _ api) fun kept => ?_)
    cases kept with
    | some id => exact .pure fun _ _ given => given.2 id rfl
    | none =>
      have plain : identifierArgument? "\x7b\x7d" = none := by decide
      exact (traces_leaf rfl fun _ _ _ => .plain plain).conclude fun _ _ => lt_size_of_getElem?
  · have arguments : ∀ part ∈ [api, filter], part < seen.nodes.size := by simpa using inside
    exact (traces_named .unresolved "FilterApi" [api, filter] arguments fun _ => rfl).conclude
      fun _ _ => Graph.RefersTo.lt_size

theorem Graph.RefersTo.text_eq {graph : Graph} {id : TypeId} {name : String}
    {arguments : List TypeId} (refers : graph.RefersTo id name arguments) :
    graph.text id = graph.referenceText name arguments := by
  obtain ⟨_, found, _⟩ := refers.node
  exact Graph.text_of_getElem? found

theorem Graph.referenceText_singleton (graph : Graph) (name : String) (argument : TypeId) :
    graph.referenceText name [argument] = name ++ "<" ++ graph.text argument ++ ">" := by
  rw [Graph.referenceText, Graph.joinedTexts, List.map_singleton, String.intercalate_singleton]
  rfl

/-- The name of an identifier type with one argument is read with the text of the argument. -/
theorem Graph.RefersTo.identifierArgument? {graph : Graph} {id argument : TypeId} {name : String}
    (refers : graph.RefersTo id name [argument]) (names : namesIdentifier name.toList = true) :
    identifierArgument? (graph.text id) =
      some (Text.trimWhile Text.isBlank (graph.text argument).toList) := by
  rw [refers.text_eq, Graph.referenceText_singleton, identifierArgument?_reference names]

theorem Graph.names_of_other {graph : Graph} {id : TypeId} {name : String}
    {arguments : List TypeId} (inside : id < graph.nodes.size)
    (other : namesIdentifier name.toList = false) : graph.Names id name arguments :=
  ⟨inside, fun named => absurd (other.symm.trans named) Bool.false_ne_true⟩

theorem traces_providedType (name : String) (arguments : List TypeId) :
    Traces (fun graph => ∀ id ∈ arguments, id < graph.nodes.size) (providedType name arguments)
      fun graph id => graph.Names id name arguments := by
  unfold providedType
  split
  · exact (traces_arrayType.imp (fun _ inside => inside _ List.mem_cons_self)
      fun _ _ stands => Graph.names_of_other stands.lt_size (by decide))
  · exact (traces_arrayType.imp (fun _ inside => inside _ List.mem_cons_self)
      fun _ _ stands => Graph.names_of_other stands.lt_size (by decide))
  · exact (traces_recordType.imp (fun _ inside => ⟨inside _ (by simp), inside _ (by simp)⟩)
      fun _ _ ⟨_, stands, _⟩ => Graph.names_of_other stands.lt_size (by decide))
  · exact (traces_nonNullableType.imp (fun _ inside => inside _ List.mem_cons_self)
      fun _ _ inside => Graph.names_of_other inside (by decide))
  · exact (traces_filteredType.imp (fun _ inside => ⟨inside _ (by simp), inside _ (by simp)⟩)
      fun _ _ inside => Graph.names_of_other inside (by decide))
  · split
    · rename_i change found
      exact ((traces_presenceType found).imp (fun _ inside => inside _ List.mem_cons_self)
        fun _ _ inside => Graph.names_of_other inside (presence_other found).1)
    · exact (traces_unresolvedType name _).conclude fun _ _ => Graph.RefersTo.names
  · exact (traces_unresolvedType name arguments).conclude fun _ _ => Graph.RefersTo.names

end Framework

end SwiftBindings.TypeGraph
