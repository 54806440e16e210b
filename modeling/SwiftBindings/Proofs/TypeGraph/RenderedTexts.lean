/-
**Types without names and their texts.**

A type is plain when it is made of keywords, string literals, lists, tuples, unions, intersections and
object types with identifiers for names. Nothing has to be looked up to resolve it, so its structure
(`TypeExpr.shape`) and its text (`TypeExpr.written`) can be said without a graph. The text is put together
from the texts of the parts: in parentheses stands only the element of a list, and only if its text has
a blank and does not start with a brace. It is given by its clauses (`TypeExpr.clauses`), since it is
those that are read from it.

**The main statement.** `renders_resolve`: a plain type is resolved to a node of this text and this
structure, in any graph whose keywords and literals have the texts they should have. All graphs of a run
are such graphs (`Reached.spelled`).
-/

import SwiftBindings.Proofs.Schema.Spreads
import SwiftBindings.Proofs.Script.WrittenPhrases
import SwiftBindings.Proofs.TypeGraph.FlatUnions
import SwiftBindings.Proofs.TypeGraph.Structure

namespace SwiftBindings.Declared

open Script TypeGraph

/-! ### Plain types -/

/-- The properties as members of an object type. -/
def propertyMembers (fields : List (String × Bool × TypeExpr)) : List Member :=
  fields.map fun field => .property field.1 field.2.1 field.2.2

/-- The type is made of keywords, string literals, lists, tuples, unions, intersections and object types
whose properties have identifiers for names. -/
inductive TypeExpr.IsPlain : TypeExpr → Prop where
  | keyword (keyword : Keyword) : IsPlain (.keyword keyword)
  | stringLiteral (value : String) : IsPlain (.stringLiteral value)
  | array {element : TypeExpr} (plain : IsPlain element) : IsPlain (.array element)
  | tuple {elements : List TypeExpr} (plain : ∀ element ∈ elements, IsPlain element) :
    IsPlain (.tuple elements)
  | union {members : List TypeExpr} (several : 2 ≤ members.length)
    (plain : ∀ member ∈ members, IsPlain member) : IsPlain (.union members)
  | intersection {members : List TypeExpr} (several : 2 ≤ members.length)
    (plain : ∀ member ∈ members, IsPlain member) : IsPlain (.intersection members)
  | object {fields : List (String × Bool × TypeExpr)}
    (names : ∀ field ∈ fields, isIdentifierName field.1 = true)
    (plain : ∀ field ∈ fields, IsPlain field.2.2) : IsPlain (.object (propertyMembers fields))

/-! ### Structures -/

mutual

/-- The structure of a plain type. -/
def TypeExpr.shape : TypeExpr → Tree
  | .keyword keyword => .primitive keyword
  | .stringLiteral value => .stringLiteral value
  | .array element => .array element.shape
  | .tuple elements => .tuple (shapes elements)
  | .union members => .union ((shapes members).flatMap Tree.alternatives)
  | .intersection members => .intersection (shapes members)
  | .object members => .object (Keyed.ofList (memberShapes members)) none
  | _ => .opaqueType

/-- The structures of plain types. -/
def shapes : List TypeExpr → List Tree
  | [] => []
  | type :: rest => type.shape :: shapes rest

/-- The properties with their structures. -/
def memberShapes : List Member → List Branch
  | [] => []
  | .property name optional type :: rest => (name, optional, type.shape) :: memberShapes rest
  | .index _ _ :: rest => memberShapes rest

end

theorem shapes_eq (types : List TypeExpr) : shapes types = types.map TypeExpr.shape := by
  induction types with
  | nil => rfl
  | cons type rest ih => rw [shapes, ih, List.map_cons]

theorem shape_object (fields : List (String × Bool × TypeExpr)) :
    (TypeExpr.object (propertyMembers fields)).shape =
      .object ((Keyed.ofList fields).map (Prod.map id (Prod.map id TypeExpr.shape))) none := by
  have members : memberShapes (propertyMembers fields) =
      fields.map (Prod.map id (Prod.map id TypeExpr.shape)) := by
    induction fields with
    | nil => rfl
    | cons field rest ih =>
      rw [propertyMembers, List.map_cons, memberShapes, List.map_cons]
      exact congrArg _ ih
  rw [TypeExpr.shape, members, Keyed.map_ofList]

/-- A union joins at least two alternatives. -/
theorem TypeExpr.IsPlain.two_le_alternatives {type : TypeExpr} (plain : type.IsPlain)
    {alternatives : List Tree} (union : type.shape = .union alternatives) : 2 ≤ alternatives.length := by
  induction plain generalizing alternatives with
  | @union members several _ ih =>
    rw [TypeExpr.shape, shapes_eq, List.flatMap_map] at union
    obtain rfl := Tree.union.inj union
    have each : ∀ member ∈ members, 1 ≤ member.shape.alternatives.length := by
      intro member inside
      cases shape : member.shape with
      | union others => exact Nat.le_of_lt (ih member inside shape)
      | _ => exact Nat.le_refl 1
    match members with
    | first :: second :: others =>
      have one := each first (by simp)
      have two := each second (by simp)
      rw [List.flatMap_cons, List.flatMap_cons, List.length_append, List.length_append]
      omega
  | object => rw [shape_object] at union; cases union
  | _ => rw [TypeExpr.shape] at union; cases union

theorem TypeExpr.IsPlain.alternatives_ne_nil {type : TypeExpr} (plain : type.IsPlain) :
    type.shape.alternatives ≠ [] := by
  cases shape : type.shape with
  | union alternatives =>
    exact List.ne_nil_of_length_pos (Nat.lt_of_lt_of_le Nat.two_pos (plain.two_le_alternatives shape))
  | _ => exact List.cons_ne_nil _ _

/-! ### Texts -/

mutual

/-- The clauses of the text of a plain type. -/
def TypeExpr.clauses : TypeExpr → Clauses
  | .keyword keyword => (Written.keyword keyword).clauses
  | .stringLiteral value => (Written.literal value).clauses
  | .array element => element.clauses.array
  | .tuple elements => (Written.tuple ((typeClauses elements).map Clauses.written)).clauses
  | .union members => (typeClauses members).flatten
  | .intersection members => .glued (typeClauses members)
  | .object members => (Written.object ((Keyed.ofList (memberClauses members)).map fun field =>
      ⟨field.1, field.2.1, field.2.2.written⟩)).clauses
  | _ => []

/-- The clauses of the texts of plain types. -/
def typeClauses : List TypeExpr → List Clauses
  | [] => []
  | type :: rest => type.clauses :: typeClauses rest

/-- The properties with the clauses of their texts. -/
def memberClauses : List Member → List (String × Bool × Clauses)
  | [] => []
  | .property name optional type :: rest => (name, optional, type.clauses) :: memberClauses rest
  | .index _ _ :: rest => memberClauses rest

end

/-- A plain type with its text, and what is read from it. -/
def TypeExpr.written (type : TypeExpr) : Written :=
  type.clauses.written

theorem typeClauses_eq (types : List TypeExpr) : typeClauses types = types.map TypeExpr.clauses := by
  induction types with
  | nil => rfl
  | cons type rest ih => rw [typeClauses, ih, List.map_cons]

/-- A property with its text. -/
def writtenField (field : String × Bool × TypeExpr) : WrittenField :=
  ⟨field.1, field.2.1, field.2.2.written⟩

theorem clauses_object (fields : List (String × Bool × TypeExpr)) :
    (TypeExpr.object (propertyMembers fields)).clauses =
      (Written.object ((Keyed.ofList fields).map writtenField)).clauses := by
  have members : memberClauses (propertyMembers fields) =
      fields.map (Prod.map id (Prod.map id TypeExpr.clauses)) := by
    induction fields with
    | nil => rfl
    | cons field rest ih =>
      rw [propertyMembers, List.map_cons, memberClauses, List.map_cons]
      exact congrArg _ ih
  rw [TypeExpr.clauses, members, ← Keyed.map_ofList, List.map_map]
  rfl

/-- **The text of a plain type is read as its clauses.** -/
theorem TypeExpr.IsPlain.areRead {type : TypeExpr} (plain : type.IsPlain) : type.clauses.AreRead := by
  induction plain with
  | keyword keyword =>
    rw [TypeExpr.clauses]
    exact ((keyword_isPrimary keyword).isOperand rfl).areRead
  | stringLiteral value =>
    rw [TypeExpr.clauses]
    exact ((literal_isPrimary value).isOperand rfl).areRead
  | array _ ih =>
    rw [TypeExpr.clauses]
    exact ih.array
  | tuple _ ih =>
    rw [TypeExpr.clauses, typeClauses_eq, List.map_map]
    refine (Written.IsPrimary.isOperand (tuple_isPrimary fun element member => ?_) rfl).areRead
    obtain ⟨type, inside, rfl⟩ := List.mem_map.mp member
    exact (ih type inside).isPhrase
  | union several _ ih =>
    rw [TypeExpr.clauses, typeClauses_eq]
    refine Clauses.areRead_flatten ?_ (List.forall_mem_map.mpr ih)
    exact mt List.map_eq_nil_iff.mp (List.ne_nil_of_length_pos (Nat.lt_of_lt_of_le Nat.two_pos several))
  | intersection several _ ih =>
    rw [TypeExpr.clauses, typeClauses_eq]
    refine (Clauses.areRead_glued ?_ (List.forall_mem_map.mpr ih)).1
    exact mt List.map_eq_nil_iff.mp (List.ne_nil_of_length_pos (Nat.lt_of_lt_of_le Nat.two_pos several))
  | object names _ ih =>
    rw [clauses_object]
    refine (Written.IsPrimary.isOperand (object_isPrimary fun field member => ?_) rfl).areRead
    obtain ⟨declared, inside, rfl⟩ := List.mem_map.mp member
    have among := Keyed.mem_ofList inside
    exact ⟨names declared among, (ih declared among).isPhrase⟩

theorem chars_array {element : TypeExpr} (plain : element.IsPlain) :
    (TypeExpr.array element).written.chars =
      if ' ' ∈ element.written.chars ∧ element.written.chars.head? ≠ some '\x7b' then
        '(' :: (element.written.chars ++ [')', '[', ']'])
      else element.written.chars ++ ['[', ']'] := by
  rw [TypeExpr.written, TypeExpr.clauses]
  exact plain.areRead.chars_array

section Members

variable {members : List TypeExpr} (plain : ∀ member ∈ members, member.IsPlain)

include plain

theorem areRead_clauses : ∀ clauses ∈ members.map TypeExpr.clauses, clauses.AreRead :=
  List.forall_mem_map.mpr fun member inside => (plain member inside).areRead

theorem chars_union : (TypeExpr.union members).written.chars =
    [' ', '|', ' '].intercalate (members.map fun member => member.written.chars) := by
  rw [TypeExpr.written, TypeExpr.clauses, typeClauses_eq, Clauses.chars_flatten (areRead_clauses plain),
    List.map_map]
  rfl

theorem chars_intersection (several : 2 ≤ members.length) : (TypeExpr.intersection members).written.chars =
    [' ', '&', ' '].intercalate (members.map fun member => member.written.chars) := by
  have some : members.map TypeExpr.clauses ≠ [] :=
    mt List.map_eq_nil_iff.mp (List.ne_nil_of_length_pos (Nat.lt_of_lt_of_le Nat.two_pos several))
  rw [TypeExpr.written, TypeExpr.clauses, typeClauses_eq,
    (Clauses.areRead_glued some (areRead_clauses plain)).2, List.map_map]
  rfl

end Members

end SwiftBindings.Declared

namespace SwiftBindings.TypeGraph

open Declared Script

/-! ### Keywords and literals -/

/-- The keywords and literals that the graph remembers have the texts they should have. -/
structure Graph.Spelled (graph : Graph) : Prop where
  keywords : ∀ keyword id, graph.keywords.lookup keyword = some id →
    graph.nodes[id]? = some ⟨.primitive keyword, keyword.text⟩
  literals : ∀ value id, graph.literals.lookup value = some id →
    graph.nodes[id]? = some ⟨.stringLiteral value, literalText value⟩

section Spelled

variable {graph later : Graph}

theorem Graph.Spelled.keep (spelled : graph.Spelled) (continues : graph.Continues later)
    (keywords : later.keywords = graph.keywords) (literals : later.literals = graph.literals) :
    later.Spelled where
  keywords keyword id found :=
    continues.nodes id _ (spelled.keywords keyword id (keywords ▸ found)) Kind.noConfusion
  literals value id found :=
    continues.nodes id _ (spelled.literals value id (literals ▸ found)) Kind.noConfusion

/-- A step leads to a graph with the right texts, in which its answer is as it should be. -/
structure Graph.Renders (graph : Graph) {α : Type} (relate : Graph → α → Prop) (result : α × Graph) :
    Prop where
  grows : graph.GrowsTo result.2
  spelled : result.2.Spelled
  shows : relate result.2 result.1

theorem Graph.Renders.after {α : Type} {relate : Graph → α → Prop} {between : Graph} {result : α × Graph}
    (grows : graph.GrowsTo between) (renders : between.Renders relate result) :
    graph.Renders relate result :=
  ⟨grows.trans renders.grows, renders.spelled, renders.shows⟩

theorem renders_keywordType (spelled : graph.Spelled) (keyword : Keyword) :
    graph.Renders (fun after id => after.nodes[id]? = some ⟨.primitive keyword, keyword.text⟩)
      (keywordType keyword graph) := by
  cases found : graph.keywords.lookup keyword with
  | some id =>
    rw [keywordType_of_some found]
    exact ⟨.refl graph, spelled, spelled.keywords keyword id found⟩
  | none =>
    rw [keywordType_of_none found]
    have grows := keyword_grows found
    have added : (graph.nodes.push ⟨.primitive keyword, keyword.text⟩)[graph.nodes.size]? =
        some ⟨.primitive keyword, keyword.text⟩ := Array.getElem?_push_size
    refine ⟨grows, ⟨fun other id held => ?_, fun value id held => ?_⟩, added⟩
    · rcases lookup_cons_cases held with ⟨rfl, rfl⟩ | before
      · exact added
      · exact grows.nodes id _ (spelled.keywords other id before)
    · exact grows.nodes id _ (spelled.literals value id held)

theorem renders_stringLiteralType (spelled : graph.Spelled) (value : String) :
    graph.Renders (fun after id => after.nodes[id]? = some ⟨.stringLiteral value, literalText value⟩)
      (stringLiteralType value graph) := by
  cases found : graph.literals.lookup value with
  | some id =>
    rw [stringLiteralType_of_some found]
    exact ⟨.refl graph, spelled, spelled.literals value id found⟩
  | none =>
    rw [stringLiteralType_of_none found]
    have grows := literal_grows found
    have added : (graph.nodes.push ⟨.stringLiteral value, literalText value⟩)[graph.nodes.size]? =
        some ⟨.stringLiteral value, literalText value⟩ := Array.getElem?_push_size
    refine ⟨grows, ⟨fun keyword id held => ?_, fun other id held => ?_⟩, added⟩
    · exact grows.nodes id _ (spelled.keywords keyword id held)
    · rcases lookup_cons_cases held with ⟨rfl, rfl⟩ | before
      · exact added
      · exact grows.nodes id _ (spelled.literals other id before)

/-- **Keywords and literals have their texts in all graphs of a run.** -/
theorem Reached.spelled {symbols : Symbols} (reached : Reached symbols graph) : graph.Spelled := by
  induction reached with
  | initial => exact ⟨fun _ _ found => (by cases found), fun _ _ found => (by cases found)⟩
  | add _ known _ _ text ih => exact ih.keep (allocate_grows known text _).continues rfl rfl
  | keyword _ keyword ih => exact (renders_keywordType ih keyword).spelled
  | literal _ value ih => exact (renders_stringLiteralType ih value).spelled
  | enter _ free _ ih => exact ih.keep (enterInstance_continues _ free) rfl rfl
  | leave starts _ _ _ _ _ ih =>
    exact ih.keep (leaveInstance_continues starts.unfinished) rfl rfl
  | start _ _ ih => exact ih.keep { Graph.Continues.refl _ with } rfl rfl
  | finish _ free _ ih => exact ih.keep (leaveValue_continues _ free) rfl rfl

end Spelled

/-! ### Types in a graph -/

/-- The type is printed and has the structure. -/
structure Graph.Prints (graph : Graph) (id : TypeId) (type : TypeExpr) : Prop where
  text : (graph.text id).toList = type.written.chars
  tree : graph.HasTree id type.shape
  joined : graph.joinedTexts (graph.alternatives id) " | " = graph.text id

section Prints

variable {graph later : Graph} {id : TypeId} {type : TypeExpr}

theorem Graph.HasTree.node {tree : Tree} (shown : graph.HasTree id tree) (grows : graph.GrowsTo later) :
    later.text id = graph.text id ∧ later.kind id = graph.kind id := by
  obtain ⟨text, found⟩ := shown.hasKind
  have kept := grows.nodes id _ found
  exact ⟨(Graph.text_of_getElem? kept).trans (Graph.text_of_getElem? found).symm,
    Graph.kind_of_getElem? kept⟩

theorem Graph.joinedTexts_keep {ids : List TypeId} {trees : List Tree}
    (shown : List.Forall₂ graph.HasTree ids trees) (grows : graph.GrowsTo later) (separator : String) :
    later.joinedTexts ids separator = graph.joinedTexts ids separator := by
  have same : ids.map later.text = ids.map graph.text := by
    induction shown with
    | nil => rfl
    | cons head _ ih => rw [List.map_cons, List.map_cons, (head.node grows).1, ih]
  rw [Graph.joinedTexts, Graph.joinedTexts, same]

theorem Graph.Prints.keep (prints : graph.Prints id type) (grows : graph.GrowsTo later) :
    later.Prints id type := by
  obtain ⟨text, kind⟩ := prints.tree.node grows
  have same : later.alternatives id = graph.alternatives id := by
    rw [Graph.alternatives, Graph.alternatives, Graph.unionMembers?, Graph.unionMembers?, kind]
  refine ⟨text ▸ prints.text, prints.tree.keep grows.continues, ?_⟩
  rw [same, Graph.joinedTexts_keep (alternatives_shown prints.tree) grows, prints.joined, text]

/-- A node with the text and the structure of a type. A union has the text of its alternatives. -/
theorem Graph.Prints.of_node {node : Node} (found : graph.nodes[id]? = some node)
    (text : node.text.toList = type.written.chars) (parts : node.kind.Shows graph.HasTree type.shape)
    (joined : ∀ members, node.kind = .union members → graph.joinedTexts members " | " = node.text) :
    graph.Prints id type := by
  refine ⟨?_, .of_kind ⟨node.text, found⟩ parts, ?_⟩
  · rw [Graph.text_of_getElem? found, text]
  · rw [Graph.alternatives, Graph.unionMembers?, Graph.kind_of_getElem? found,
      Graph.text_of_getElem? found]
    cases kind : node.kind with
    | union members => exact joined members kind
    | _ =>
      rw [Option.getD_none, Graph.joinedTexts, List.map_singleton, String.intercalate_singleton]
      exact Graph.text_of_getElem? found

/-- A new node. -/
theorem renders_allocate (spelled : graph.Spelled) {kind : Kind} {text : String}
    (chars : text.toList = type.written.chars) (parts : kind.Shows graph.HasTree type.shape)
    (joined : ∀ members, kind = .union members → graph.joinedTexts members " | " = text) :
    graph.Renders (fun after id => after.Prints id type) (allocate kind text graph) := by
  have grows := allocate_grows parts.ne_pending text graph
  refine ⟨grows, spelled.keep grows.continues rfl rfl, ?_⟩
  have kept := parts.mono fun _ _ => Graph.HasTree.keep grows.continues
  have found : (graph.nodes.push ⟨kind, text⟩)[graph.nodes.size]? = some ⟨kind, text⟩ :=
    Array.getElem?_push_size
  refine .of_node found chars kept fun members union => ?_
  obtain rfl : kind = .union members := union
  generalize type.shape = tree at parts
  cases parts with
  | union members => exact (Graph.joinedTexts_keep members grows " | ").trans (joined _ rfl)

end Prints

/-! ### Texts of parts -/

section Parts

variable {graph later : Graph}

theorem Graph.toList_joinedTexts (ids : List TypeId) (separator : String) :
    (graph.joinedTexts ids separator).toList =
      separator.toList.intercalate (ids.map fun id => (graph.text id).toList) := by
  rw [Graph.joinedTexts, String.toList_intercalate, List.map_map]
  rfl

theorem Graph.chars_joinedTexts {ids : List TypeId} {types : List TypeExpr}
    (printed : List.Forall₂ graph.Prints ids types) (separator : String) :
    (graph.joinedTexts ids separator).toList =
      separator.toList.intercalate (types.map fun type => type.written.chars) := by
  have same : ids.map (fun id => (graph.text id).toList) = types.map fun type => type.written.chars := by
    induction printed with
    | nil => rfl
    | cons head _ ih => rw [List.map_cons, List.map_cons, head.text, ih]
  rw [Graph.toList_joinedTexts, same]

/-- The property is printed and has the structure of the other. -/
structure Graph.PrintsProperty (graph : Graph) (property : Property) (field : String × Bool × TypeExpr) :
    Prop where
  name : property.name = field.1
  optional : property.optional = field.2.1
  type : graph.Prints property.type field.2.2

theorem Graph.PrintsProperty.keep {property : Property} {field : String × Bool × TypeExpr}
    (prints : graph.PrintsProperty property field) (grows : graph.GrowsTo later) :
    later.PrintsProperty property field :=
  ⟨prints.name, prints.optional, prints.type.keep grows⟩

theorem printed_upsertProperty {properties : List Property} {fields : List (String × Bool × TypeExpr)}
    (printed : List.Forall₂ graph.PrintsProperty properties fields) {property : Property}
    {field : String × Bool × TypeExpr} (added : graph.PrintsProperty property field) :
    List.Forall₂ graph.PrintsProperty (upsertProperty properties property)
      (Keyed.put field.1 field.2 fields) := by
  induction printed with
  | nil => exact .cons added .nil
  | cons head tail ih =>
    rw [upsertProperty, Keyed.put, head.name, added.name]
    simp only [beq_iff_eq]
    split
    · exact .cons added tail
    · exact .cons head ih

/-- The text of a property. -/
theorem Graph.PrintsProperty.chars {property : Property} {field : String × Bool × TypeExpr}
    (prints : graph.PrintsProperty property field) :
    (graph.propertyText property).toList = (writtenField field).chars := by
  rw [Graph.propertyText, WrittenField.chars, writtenField, prints.name, prints.optional]
  cases field.2.1 <;> simp [prints.type.text]

/-- The text of an object type. -/
theorem Graph.chars_objectText {properties : List Property} {fields : List (String × Bool × TypeExpr)}
    (printed : List.Forall₂ graph.PrintsProperty properties fields) :
    (graph.objectText ⟨properties, none⟩).toList = (Written.object (fields.map writtenField)).chars := by
  cases printed with
  | nil => simp [Graph.objectText, Written.object]
  | @cons property field properties fields head tail =>
    have same : (properties.map graph.propertyText).map String.toList =
        (fields.map writtenField).map WrittenField.chars := by
      induction tail with
      | nil => rfl
      | cons head _ ih => simp only [List.map_cons, head.chars, ih]
    rw [Graph.objectText, Written.object]
    simp [String.toList_intercalate, head.chars, same]

/-- The node is printed as a union, and these are its alternatives. -/
structure Graph.PrintsAlternatives (graph : Graph) (ids : List TypeId) (type : TypeExpr) : Prop where
  text : [' ', '|', ' '].intercalate (ids.map fun id => (graph.text id).toList) = type.written.chars
  trees : List.Forall₂ graph.HasTree ids type.shape.alternatives

theorem Graph.Prints.alternatives {id : TypeId} {type : TypeExpr} (prints : graph.Prints id type) :
    graph.PrintsAlternatives (graph.alternatives id) type :=
  ⟨by rw [← prints.text, ← prints.joined, Graph.toList_joinedTexts]; rfl, alternatives_shown prints.tree⟩

theorem Graph.PrintsAlternatives.keep {ids : List TypeId} {type : TypeExpr}
    (prints : graph.PrintsAlternatives ids type) (grows : graph.GrowsTo later) :
    later.PrintsAlternatives ids type := by
  have same := congrArg String.toList (Graph.joinedTexts_keep prints.trees grows " | ")
  rw [Graph.toList_joinedTexts, Graph.toList_joinedTexts] at same
  exact ⟨same.trans prints.text, prints.trees.imp fun _ _ => Graph.HasTree.keep grows.continues⟩

/-- The alternatives of the members of a union are printed as the members are. -/
theorem Graph.chars_alternatives {groups : List (List TypeId)} {types : List TypeExpr}
    (printed : List.Forall₂ graph.PrintsAlternatives groups types)
    (plain : ∀ type ∈ types, type.IsPlain) :
    [' ', '|', ' '].intercalate (groups.flatten.map fun id => (graph.text id).toList) =
      [' ', '|', ' '].intercalate (types.map fun type => type.written.chars) := by
  have each : (∀ group ∈ groups, group ≠ []) ∧
      groups.map (fun ids => [' ', '|', ' '].intercalate (ids.map fun id => (graph.text id).toList)) =
        types.map fun type => type.written.chars := by
    induction printed with
    | nil => exact ⟨fun _ member => absurd member List.not_mem_nil, rfl⟩
    | cons head _ ih =>
      obtain ⟨some, texts⟩ := ih fun type member => plain type (List.mem_cons_of_mem _ member)
      refine ⟨List.forall_mem_cons.mpr ⟨?_, some⟩, by rw [List.map_cons, List.map_cons, head.text, texts]⟩
      rintro rfl
      have none := List.forall₂_nil_left_iff.mp head.trees
      exact (plain _ List.mem_cons_self).alternatives_ne_nil none
  rw [List.map_flatten, intercalate_flatten, List.map_map, ← each.2]
  · rfl
  · intro texts member
    obtain ⟨group, inside, rfl⟩ := List.mem_map.mp member
    exact mt List.map_eq_nil_iff.mp (each.1 group inside)

end Parts

theorem toList_arrayText (element : String) : (arrayText element).toList =
    if ' ' ∈ element.toList ∧ element.toList.head? ≠ some '\x7b' then
      '(' :: (element.toList ++ [')', '[', ']'])
    else element.toList ++ ['[', ']'] := by
  rw [arrayText]
  split <;> simp

/-! ### Resolution -/

section Resolve

variable (symbols : Symbols) (deeper : Deeper) (scope : Scope)

/-- The type is printed and has its structure when it is resolved. -/
def IsRendered (type : TypeExpr) : Prop :=
  ∀ graph : Graph, graph.Spelled →
    graph.Renders (fun after id => after.Prints id type) (resolve symbols deeper scope type graph)

variable {symbols deeper scope}

theorem renders_resolveAll {types : List TypeExpr}
    (rendered : ∀ type ∈ types, IsRendered symbols deeper scope type) (graph : Graph)
    (spelled : graph.Spelled) :
    graph.Renders (fun after ids => List.Forall₂ after.Prints ids types)
      (resolveAll symbols deeper scope types graph) := by
  induction types generalizing graph with
  | nil =>
    rw [resolveAll]
    exact ⟨.refl graph, spelled, .nil⟩
  | cons type rest ih =>
    have first := rendered type List.mem_cons_self graph spelled
    have later := ih (fun other member => rendered other (List.mem_cons_of_mem _ member)) _ first.spelled
    rw [resolveAll]
    exact .after first.grows
      ⟨later.grows, later.spelled, .cons (first.shows.keep later.grows) later.shows⟩

theorem renders_resolveAlternatives {types : List TypeExpr}
    (rendered : ∀ type ∈ types, IsRendered symbols deeper scope type) (graph : Graph)
    (spelled : graph.Spelled) :
    graph.Renders (fun after ids => ∃ groups, ids = groups.flatten ∧
        List.Forall₂ after.PrintsAlternatives groups types)
      (resolveAlternatives symbols deeper scope types graph) := by
  induction types generalizing graph with
  | nil =>
    rw [resolveAlternatives]
    exact ⟨.refl graph, spelled, [], rfl, .nil⟩
  | cons type rest ih =>
    have first := rendered type List.mem_cons_self graph spelled
    have later := ih (fun other member => rendered other (List.mem_cons_of_mem _ member)) _ first.spelled
    obtain ⟨groups, others, printed⟩ := later.shows
    rw [resolveAlternatives]
    refine .after first.grows ⟨later.grows, later.spelled, _ :: groups, ?_,
      .cons (first.shows.alternatives.keep later.grows) printed⟩
    rw [List.flatten_cons, ← others]
    rfl

theorem renders_resolveMembers {fields : List (String × Bool × TypeExpr)}
    (rendered : ∀ field ∈ fields, IsRendered symbols deeper scope field.2.2) (graph : Graph)
    (spelled : graph.Spelled) {properties : List Property} {before : List (String × Bool × TypeExpr)}
    (printed : List.Forall₂ graph.PrintsProperty properties before) :
    graph.Renders (fun after shape => ∃ properties, shape = ⟨properties, none⟩ ∧
        List.Forall₂ after.PrintsProperty properties (Keyed.extend before fields))
      (resolveMembers symbols deeper scope ⟨properties, none⟩ (propertyMembers fields) graph) := by
  induction fields generalizing graph properties before with
  | nil =>
    rw [propertyMembers, List.map_nil, resolveMembers]
    exact ⟨.refl graph, spelled, properties, rfl, printed⟩
  | cons field rest ih =>
    have first := rendered field List.mem_cons_self graph spelled
    have kept := printed.imp fun _ _ property => property.keep first.grows
    let after := resolve symbols deeper scope field.2.2 graph
    have added : after.2.PrintsProperty ⟨field.1, after.1, field.2.1⟩ field := ⟨rfl, rfl, first.shows⟩
    have later := ih (fun other member => rendered other (List.mem_cons_of_mem _ member)) _
      first.spelled (printed_upsertProperty kept added)
    rw [propertyMembers, List.map_cons, resolveMembers, bind_apply]
    exact .after first.grows later

/-- **A plain type is resolved to a node of its text and its structure.** -/
theorem renders_resolve {type : TypeExpr} (plain : type.IsPlain) :
    IsRendered symbols deeper scope type := by
  induction plain with
  | keyword keyword =>
    intro graph spelled
    have word := renders_keywordType spelled keyword
    rw [resolve]
    refine ⟨word.grows, word.spelled, .of_node word.shows ?_ (.primitive keyword) fun _ => Kind.noConfusion⟩
    rw [TypeExpr.written, TypeExpr.clauses, Written.clauses_written]
    rfl
  | stringLiteral value =>
    intro graph spelled
    have literal := renders_stringLiteralType spelled value
    rw [resolve]
    refine ⟨literal.grows, literal.spelled,
      .of_node literal.shows ?_ (.stringLiteral value) fun _ => Kind.noConfusion⟩
    rw [TypeExpr.written, TypeExpr.clauses, Written.clauses_written]
    rfl
  | @array element plain ih =>
    intro graph spelled
    have inner := ih graph spelled
    rw [resolve, bind_apply]
    refine .after inner.grows (renders_allocate inner.spelled ?_ ?_ fun _ => Kind.noConfusion)
    · rw [chars_array plain, toList_arrayText, inner.shows.text]
    · rw [TypeExpr.shape]
      exact .array inner.shows.tree
  | @tuple elements _ ih =>
    intro graph spelled
    have all := renders_resolveAll ih graph spelled
    rw [resolve, bind_apply]
    refine .after all.grows (renders_allocate all.spelled ?_ ?_ fun _ => Kind.noConfusion)
    · rw [TypeExpr.written, TypeExpr.clauses, Written.clauses_written, typeClauses_eq]
      simp [Graph.chars_joinedTexts all.shows, Written.tuple, TypeExpr.written, Function.comp_def]
    · rw [TypeExpr.shape, shapes_eq]
      exact .tuple (List.forall₂_map_right_iff.mpr (all.shows.imp fun _ _ prints => prints.tree))
  | @union members several plain ih =>
    intro graph spelled
    have all := renders_resolveAlternatives ih graph spelled
    obtain ⟨groups, ids, printed⟩ := all.shows
    rw [resolve, bind_apply]
    refine .after all.grows (renders_allocate all.spelled ?_ ?_ fun _ same => ?_)
    · rw [chars_union plain, ids, Graph.toList_joinedTexts]
      exact Graph.chars_alternatives printed plain
    · rw [TypeExpr.shape, shapes_eq, List.flatMap_map, List.flatMap_def, ids]
      exact .union (List.rel_flatten
        (List.forall₂_map_right_iff.mpr (printed.imp fun _ _ prints => prints.trees)))
    · cases same
      rfl
  | @intersection members several plain ih =>
    intro graph spelled
    have all := renders_resolveAll ih graph spelled
    rw [resolve, bind_apply]
    refine .after all.grows (renders_allocate all.spelled ?_ ?_ fun _ => Kind.noConfusion)
    · rw [Graph.chars_joinedTexts all.shows, chars_intersection plain several]
      rfl
    · rw [TypeExpr.shape, shapes_eq]
      exact .intersection (List.forall₂_map_right_iff.mpr (all.shows.imp fun _ _ prints => prints.tree))
  | @object fields _ _ ih =>
    intro graph spelled
    obtain ⟨grows, after, properties, shape, printed⟩ :=
      renders_resolveMembers ih graph spelled .nil
    rw [resolve, bind_apply]
    refine .after grows (renders_allocate after ?_ ?_ fun _ => Kind.noConfusion)
    · rw [shape, Graph.chars_objectText printed, TypeExpr.written, clauses_object, Written.clauses_written]
      rfl
    · rw [shape, shape_object]
      refine .object ⟨?_, .none⟩
      exact List.forall₂_map_right_iff.mpr
        (printed.imp fun _ _ prints => ⟨prints.name, prints.optional, prints.type.tree⟩)

end Resolve

end SwiftBindings.TypeGraph
