/-
**Parts of types.**

A structure refers to other types by their places (`Kind.parts`). A graph is closed (`Graph.Closed`)
when all these places have nodes. In a closed graph every walk stays inside: the members of a union,
the properties of a type, the type of its further properties and the end of a path are nodes.
-/

import SwiftBindings.TypeGraph.Resolution

namespace SwiftBindings.TypeGraph

/-- The types that a structure refers to. -/
def Kind.parts : Kind → List TypeId
  | .array element => [element]
  | .tuple elements => elements
  | .union members => members
  | .intersection parts => parts
  | .object shape => shape.properties.map Property.type ++ shape.index.toList
  | _ => []

theorem forall_mem_parts_object {shape : ObjectShape} {fits : TypeId → Prop} :
    (∀ part ∈ (Kind.object shape).parts, fits part) ↔
      (∀ property ∈ shape.properties, fits property.type) ∧ ∀ value ∈ shape.index, fits value := by
  constructor
  · intro all
    exact ⟨fun property member => all _ (List.mem_append_left _ (List.mem_map_of_mem member)),
      fun value found => all value (List.mem_append_right _ (Option.mem_toList.mpr found))⟩
  · rintro ⟨properties, index⟩ part member
    rcases List.mem_append.mp member with member | member
    · obtain ⟨property, inside, rfl⟩ := List.mem_map.mp member
      exact properties property inside
    · exact index part (Option.mem_toList.mp member)

/-! ### Lists of properties -/

theorem forall_mem_mergeProperties {fits : Property → Prop} {first second : List Property}
    (one : ∀ property ∈ first, fits property) (other : ∀ property ∈ second, fits property) :
    ∀ property ∈ mergeProperties first second, fits property := by
  rw [mergeProperties]
  induction second generalizing first with
  | nil => exact one
  | cons property rest ih =>
    rw [List.foldl_cons]
    refine ih ?_ fun later member => other later (List.mem_cons_of_mem _ member)
    split
    · exact one
    · intro later member
      rcases List.mem_append.mp member with member | member
      · exact one later member
      · rw [List.mem_singleton.mp member]
        exact other property List.mem_cons_self

theorem forall_mem_upsertProperty {fits : Property → Prop} {properties : List Property}
    {property : Property} (all : ∀ other ∈ properties, fits other) (own : fits property) :
    ∀ other ∈ upsertProperty properties property, fits other := by
  induction properties with
  | nil =>
    intro other member
    rw [List.mem_singleton.mp member]
    exact own
  | cons first rest ih =>
    rw [upsertProperty]
    have others : ∀ other ∈ rest, fits other :=
      fun other member => all other (List.mem_cons_of_mem _ member)
    split
    · exact List.forall_mem_cons.mpr ⟨own, others⟩
    · exact List.forall_mem_cons.mpr ⟨all first List.mem_cons_self, ih others⟩

theorem forall_mem_foldl_upsertProperty {fits : Property → Prop} {properties more : List Property}
    (all : ∀ other ∈ properties, fits other) (added : ∀ other ∈ more, fits other) :
    ∀ other ∈ more.foldl upsertProperty properties, fits other := by
  induction more generalizing properties with
  | nil => exact all
  | cons first rest ih =>
    rw [List.foldl_cons]
    exact ih (forall_mem_upsertProperty all (added first List.mem_cons_self))
      fun other member => added other (List.mem_cons_of_mem _ member)

/-! ### Closed graphs -/

/-- The type of methods and all that types refer to are nodes. -/
structure Graph.Closed (graph : Graph) : Prop where
  method : methodType < graph.nodes.size
  parts : ∀ (id : TypeId) (node : Node), graph.nodes[id]? = some node →
    ∀ part ∈ node.kind.parts, part < graph.nodes.size

section Closed

variable {graph : Graph} (closed : graph.Closed)

include closed

theorem Graph.Closed.part_lt (id : TypeId) {part : TypeId} (member : part ∈ (graph.kind id).parts) :
    part < graph.nodes.size := by
  rw [Graph.kind] at member
  cases found : graph.nodes[id]? with
  | none =>
    rw [found] at member
    cases member
  | some node =>
    rw [found] at member
    exact closed.parts id node found part member

theorem Graph.Closed.unionMember_lt {id : TypeId} {members : List TypeId}
    (found : graph.unionMembers? id = some members) : ∀ member ∈ members,
      member < graph.nodes.size := by
  intro member inside
  rw [Graph.unionMembers?] at found
  split at found
  · rename_i same
    cases found
    refine closed.part_lt id ?_
    rw [same]
    exact inside
  · cases found

theorem Graph.Closed.alternative_lt {id : TypeId} (inside : id < graph.nodes.size) :
    ∀ alternative ∈ graph.alternatives id, alternative < graph.nodes.size := by
  intro alternative member
  rw [Graph.alternatives] at member
  cases found : graph.unionMembers? id with
  | none =>
    rw [found, Option.getD_none, List.mem_singleton] at member
    exact member ▸ inside
  | some members =>
    rw [found, Option.getD_some] at member
    exact closed.unionMember_lt found alternative member

/-- The type of every property is a node. -/
theorem Graph.Closed.propertiesWithin_lt (levels : Nat) (id : TypeId) :
    ∀ property ∈ graph.propertiesWithin levels id, property.type < graph.nodes.size := by
  have methods : ∀ names : List String, ∀ property ∈ inherited names,
      property.type < graph.nodes.size := by
    intro names property member
    obtain ⟨name, _, rfl⟩ := List.mem_map.mp member
    exact closed.method
  induction levels generalizing id with
  | zero =>
    intro property member
    cases member
  | succ levels ih =>
    rw [Graph.propertiesWithin]
    split
    · rename_i shape same
      intro property member
      refine closed.part_lt id ?_
      rw [same]
      exact List.mem_append_left _ (List.mem_map_of_mem member)
    · rename_i parts same
      have fold : ∀ (parts : List TypeId) (merged : List Property),
          (∀ property ∈ merged, property.type < graph.nodes.size) →
          ∀ property ∈ parts.foldl (fun merged part =>
            mergeProperties merged (graph.propertiesWithin levels part)) merged,
            property.type < graph.nodes.size := by
        intro parts
        induction parts with
        | nil => exact fun _ merged => merged
        | cons part rest step =>
          intro merged held
          exact step _ (forall_mem_mergeProperties held (ih part))
      exact fold parts [] fun property member => by cases member
    · exact methods _
    · exact methods _
    · exact methods _
    · exact methods _
    · exact methods _
    · exact methods _
    · intro property member
      cases member

theorem Graph.Closed.property_lt (id : TypeId) :
    ∀ property ∈ graph.properties id, property.type < graph.nodes.size :=
  closed.propertiesWithin_lt _ id

theorem Graph.Closed.indexWithin_lt (levels : Nat) {id value : TypeId}
    (found : graph.indexWithin levels id = some value) : value < graph.nodes.size := by
  induction levels generalizing id with
  | zero => cases found
  | succ levels ih =>
    rw [Graph.indexWithin] at found
    split at found
    · rename_i shape same
      refine closed.part_lt id ?_
      rw [same]
      exact List.mem_append_right _ (Option.mem_toList.mpr found)
    · obtain ⟨part, _, held⟩ := List.exists_of_findSome?_eq_some found
      exact ih held
    · cases found

theorem Graph.Closed.index_lt (id : TypeId) :
    ∀ value ∈ graph.index? id, value < graph.nodes.size :=
  fun _ found => closed.indexWithin_lt _ found

theorem Graph.Closed.follow_lt {id found : TypeId} (inside : id < graph.nodes.size)
    {path : List String} (leads : graph.follow? id path = some found) :
    found < graph.nodes.size := by
  rw [Graph.follow?] at leads
  induction path generalizing id with
  | nil =>
    cases leads
    exact inside
  | cons name rest ih =>
    rw [List.foldlM_cons] at leads
    cases held : graph.property? id name with
    | none =>
      rw [held] at leads
      cases leads
    | some property =>
      rw [held] at leads
      exact ih (closed.property_lt id property (List.mem_of_find?_eq_some held)) leads

theorem Graph.Closed.aliasKind_parts (id target : TypeId) :
    ∀ part ∈ (graph.aliasKind id target).parts, part < graph.nodes.size := by
  intro part member
  rw [Graph.aliasKind] at member
  split at member
  · cases member
  · split at member
    · cases member
    · exact closed.part_lt target member

end Closed

/-! ### Mappings -/

/-- The shape of a mapping in a graph: literal keys are properties of their own. -/
def recordShape (graph : Graph) (key value : TypeId) : ObjectShape :=
  match graph.literalKeys? key with
  | some names => ⟨names.map fun name => ⟨name, value, false⟩, none⟩
  | none => ⟨[], some value⟩

theorem recordType_run (key value : TypeId) (graph : Graph) :
    recordType key value graph = allocate (.object (recordShape graph key value))
      ("Record<" ++ graph.text key ++ ", " ++ graph.text value ++ ">") graph := rfl

theorem eq_of_mem_recordShape {graph : Graph} {key value part : TypeId}
    (member : part ∈ (Kind.object (recordShape graph key value)).parts) : part = value := by
  rw [recordShape] at member
  cases keys : graph.literalKeys? key with
  | some names =>
    simp only [keys, Kind.parts, List.map_map, Option.toList_none, List.append_nil, List.mem_map,
      Function.comp_apply] at member
    obtain ⟨_, _, same⟩ := member
    exact same.symm
  | none =>
    simpa only [keys, Kind.parts, List.map_nil, List.nil_append, Option.toList_some,
      List.mem_singleton] using member

end SwiftBindings.TypeGraph
