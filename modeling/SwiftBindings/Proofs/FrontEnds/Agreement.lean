/-
**Both sources of validators agree.**

The type of a builder is resolved to a type with the builder's alternatives (`traces_builder`), so it is
reduced to their validator; so is the builder itself where it is written in a table definition
(`Builder.validatorTo_outline`). A field declared as a builder and an exported value of the builder's
type therefore have the same validator in outline (`field_agrees_with_export`).
-/

import SwiftBindings.Proofs.FrontEnds.Readings
import SwiftBindings.Proofs.Reduction.OriginRuns
import SwiftBindings.Proofs.Schema.Endless

namespace SwiftBindings.TypeGraph

open Declared Reduction

/-! ### Types of builders -/

section Resolve

variable {symbols : Symbols} {deeper : Deeper} {scope : Scope}

theorem resolve_reference (name : String) (argument : TypeExpr) (rest : List TypeExpr) :
    resolve symbols deeper scope (.reference name (argument :: rest)) =
      (resolveAll symbols deeper scope (argument :: rest) >>= namedType symbols deeper name) := by
  rw [resolve]
  rfl

theorem namedType_undeclared {name : String} (free : symbols.type? name = none) :
    namedType symbols deeper name = providedType name := by
  funext arguments
  rw [namedType, free]
  rfl

theorem Graph.Shows.lt_size {graph : Graph} {depth : Nat} {id : TypeId}
    {alternatives : List Alternative} (shows : graph.Shows depth id alternatives) :
    id < graph.nodes.size := by
  cases shows with
  | single offers =>
    cases offers with
    | absence stands => exact stands.lt_size
    | null stands => exact stands.lt_size
    | present node => exact lt_size_of_getElem? node
  | union node => exact lt_size_of_getElem? node

theorem lt_size_of_offers {graph : Graph} {depth : Nat} {ids : List TypeId}
    {alternatives : List Alternative} (offers : List.Forall₂ (graph.Offers depth) ids alternatives) :
    ∀ id ∈ ids, id < graph.nodes.size := by
  induction offers with
  | nil => exact fun _ member => absurd member List.not_mem_nil
  | cons first _ ih => exact List.forall_mem_cons.mpr ⟨(Graph.Shows.single first).lt_size, ih⟩

/-- A type brings its alternatives to a union. -/
theorem Graph.Shows.offers {graph : Graph} {depth : Nat} {id : TypeId}
    {alternatives : List Alternative} (shows : graph.Shows depth id alternatives) :
    List.Forall₂ (graph.Offers depth) (graph.alternatives id) alternatives := by
  rw [Graph.alternatives]
  cases shows with
  | single offers =>
    rw [offers.unionMembers?_eq_none]
    exact .cons offers .nil
  | union node before offers =>
    rw [Graph.unionMembers?, Graph.kind_of_getElem? node]
    exact offers.imp fun _ _ offers => offers.mono (Nat.le_succ _)

instance (depth : Nat) (ids : List TypeId) (alternatives : List Alternative) :
    Kept fun graph => List.Forall₂ (graph.Offers depth) ids alternatives :=
  ⟨fun keeps offers => offers.imp fun _ _ offers => offers.keep keeps⟩

theorem traces_singleton {type : TypeExpr} {before : Graph → Prop} [Kept before]
    {after : Graph → TypeId → Prop}
    (traces : Traces before (resolve symbols deeper scope type) after) :
    Traces before (resolveAll symbols deeper scope [type])
      fun graph ids => ∃ id, ids = [id] ∧ after graph id := by
  rw [resolveAll, resolveAll]
  refine traces.bind fun id => ?_
  exact .pure fun graph _ given => ⟨id, rfl, given.2⟩

theorem traces_alternatives_cons {type : TypeExpr} {rest : List TypeExpr} {depth : Nat}
    {alternatives others : List Alternative}
    (first : Traces (fun _ => True) (resolve symbols deeper scope type)
      fun graph id => graph.Shows depth id alternatives)
    (more : Traces (fun _ => True) (resolveAlternatives symbols deeper scope rest)
      fun graph ids => List.Forall₂ (graph.Offers depth) ids others) :
    Traces (fun _ => True) (resolveAlternatives symbols deeper scope (type :: rest))
      fun graph ids => List.Forall₂ (graph.Offers depth) ids (alternatives ++ others) := by
  rw [resolveAlternatives]
  refine first.bind fun id => .look fun seen traced given => ?_
  refine .using (fun graph => True ∧
    List.Forall₂ (graph.Offers depth) (seen.alternatives id) alternatives) ⟨trivial, given.2.offers⟩ ?_
  refine (more.carry _).bind fun ids => ?_
  exact .pure fun graph _ given => List.rel_append given.1.2 given.2.1

theorem traces_alternatives_nil {depth : Nat} :
    Traces (fun _ => True) (resolveAlternatives symbols deeper scope [])
      fun graph ids => List.Forall₂ (graph.Offers depth) ids [] := by
  rw [resolveAlternatives]
  exact .pure fun _ _ _ => .nil

/-- A union shows the alternatives that its members bring. -/
theorem traces_union {types : List TypeExpr} {depth : Nat} {alternatives : List Alternative}
    (traces : Traces (fun _ => True) (resolveAlternatives symbols deeper scope types)
      fun graph ids => List.Forall₂ (graph.Offers depth) ids alternatives) :
    Traces (fun _ => True) (resolve symbols deeper scope (.union types))
      fun graph id => graph.Shows (depth + 1) id alternatives := by
  rw [resolve]
  refine traces.bind fun ids => ?_
  refine (traces_unionType.carry fun graph =>
    List.Forall₂ (graph.Offers depth) ids alternatives).imp ?_ ?_
  · exact fun graph given => ⟨lt_size_of_offers given.2, given.2⟩
  · exact fun graph id ⟨⟨text, node, before⟩, offers⟩ => .union node before offers

/-! ### Builders without parts and identifiers -/

/-- The type of a builder without parts is resolved to a node of its structure. -/
theorem traces_leaf_type (leaf : Leaf) (admissible : leaf.isAdmissible = true) :
    Traces (fun _ => True) (resolve symbols deeper scope leaf.type)
      fun graph id => graph.Shows 1 id [leaf.alternative] := by
  have stands : Traces (fun _ => True) (resolve symbols deeper scope leaf.type)
      fun graph id => graph.Stands id leaf.kind := by
    cases leaf with
    | string | number | boolean | any | null =>
      rw [Leaf.type, resolve]
      exact (traces_keywordType _ _).conclude fun _ _ found =>
        ⟨_, identifierArgument?_keyword _, found, fun _ member => by cases member⟩
    | stringLiteral value =>
      rw [Leaf.type, resolve]
      exact (traces_stringLiteralType _ value).conclude fun _ _ found =>
        ⟨_, identifierArgument?_literalText value, found, fun _ member => by cases member⟩
    | booleanLiteral value =>
      have plain : identifierArgument? (if value then "true" else "false") = none := by
        cases value <;> decide
      rw [Leaf.type, resolve]
      exact (traces_leaf rfl fun _ _ _ => .plain plain).conclude fun _ _ found =>
        ⟨_, plain, found, fun _ member => by cases member⟩
    | numberLiteral text =>
      have unopened : '<' ∉ text.toList := by simpa [Leaf.isAdmissible] using admissible
      have plain : identifierArgument? text = none := by
        rw [Option.eq_none_iff_forall_ne_some]
        intro written reads
        obtain ⟨name, inner, whole, _⟩ := identifierArgument?_eq_some_iff.mp reads
        exact unopened (whole ▸ List.mem_append_right _ List.mem_cons_self)
      rw [Leaf.type, resolve]
      exact (traces_leaf rfl fun _ _ _ => .plain plain).conclude fun _ _ found =>
        ⟨_, plain, found, fun _ member => by cases member⟩
  exact stands.conclude fun _ _ stands => .single (Graph.offers_leaf stands)

theorem traces_undefined : Traces (fun _ => True)
    (resolve symbols deeper scope (.keyword .undefined))
      fun graph id => graph.Shows 1 id [.absence] := by
  rw [resolve]
  exact (traces_keywordType _ _).conclude fun _ _ found =>
    .single (.absence ⟨_, identifierArgument?_keyword _, found, fun _ member => by cases member⟩)

theorem traces_identifier (further : deeper.Traces) {table : String}
    (legible : isLegible table = true) :
    Traces (fun _ => True) (resolve symbols deeper scope (.reference "Id" [.stringLiteral table]))
      fun graph id => graph.Shows 1 id [.present (.id (some table))] := by
  have literal : Traces (fun _ => True) (resolve symbols deeper scope (.stringLiteral table))
      fun graph id => graph.nodes[id]? = some ⟨.stringLiteral table, literalText table⟩ := by
    rw [resolve]
    exact traces_stringLiteralType _ table
  rw [resolve_reference]
  refine (traces_singleton literal).bind fun ids graph traced given => ?_
  obtain ⟨_, argument, rfl, found⟩ := given
  have named : Traces _ (namedType symbols deeper "Id" [argument]) fun graph id =>
      graph.Names id "Id" [argument] ∧
        graph.nodes[argument]? = some ⟨.stringLiteral table, literalText table⟩ :=
    (traces_namedType further "Id" [argument]).carry _
  obtain ⟨traced, extended, names, found⟩ :=
    named graph traced ⟨by simpa using lt_size_of_getElem? found, found⟩
  refine ⟨traced, extended, ?_⟩
  have identifies : namesIdentifier "Id".toList = true := by decide
  have refers := names.2 identifies
  have reads := refers.identifierArgument? identifies
  obtain ⟨kind, node, nominal⟩ := refers.node
  rw [Graph.text_of_getElem? node, Graph.text_of_getElem? found] at reads
  exact .single (Graph.offers_identifier node (nominal identifies) reads
    ((unquoted?_literalText_eq_iff table).mpr legible))

/-! ### Lists and mappings -/

theorem traces_list {element : TypeExpr} {depth : Nat} {alternatives : List Alternative}
    (positive : 0 < depth) (undeclared : symbols.type? "Array" = none)
    (traces : Traces (fun _ => True) (resolve symbols deeper scope element)
      fun graph id => graph.Shows depth id alternatives) :
    Traces (fun _ => True) (resolve symbols deeper scope (.reference "Array" [element]))
      fun graph id => graph.Shows (depth + 1) id [.present (.array (.ofAlternatives alternatives))] := by
  rw [resolve_reference, namedType_undeclared undeclared]
  refine (traces_singleton traces).bind fun ids graph traced given => ?_
  obtain ⟨_, inner, rfl, shows⟩ := given
  have built : Traces _ (arrayType inner) fun graph id => graph.Stands id (.array inner) ∧
      graph.Reduces depth inner (.ofAlternatives alternatives) := traces_arrayType.carry _
  obtain ⟨traced, extended, stands, reduces⟩ :=
    built graph traced ⟨shows.lt_size, shows.reduces positive⟩
  exact ⟨traced, extended, .single (Graph.offers_array stands reduces)⟩

theorem traces_mapping {value : TypeExpr} {depth : Nat} {alternatives : List Alternative}
    (positive : 0 < depth) (undeclared : symbols.type? "Record" = none)
    (traces : Traces (fun _ => True) (resolve symbols deeper scope value)
      fun graph id => graph.Shows depth id alternatives) :
    Traces (fun _ => True)
      (resolve symbols deeper scope (.reference "Record" [.keyword .string, value]))
      fun graph id =>
        graph.Shows (depth + 1) id [.present (.record none (.ofAlternatives alternatives))] := by
  have keys : Traces (fun _ => True) (resolve symbols deeper scope (.keyword .string))
      fun graph id => graph.nodes[id]? = some ⟨.primitive .string, Keyword.string.text⟩ := by
    rw [resolve]
    exact traces_keywordType _ .string
  have both : Traces (fun _ => True) (resolveAll symbols deeper scope [.keyword .string, value])
      fun graph ids => ∃ key inner, ids = [key, inner] ∧
        graph.nodes[key]? = some ⟨.primitive .string, Keyword.string.text⟩ ∧
          graph.Shows depth inner alternatives := by
    rw [resolveAll]
    refine keys.bind fun key => ?_
    refine ((traces_singleton traces).carry fun graph =>
      graph.nodes[key]? = some ⟨.primitive .string, Keyword.string.text⟩).bind fun ids => ?_
    refine .pure fun graph _ given => ?_
    obtain ⟨_, ⟨inner, rfl, shows⟩, found⟩ := given
    exact ⟨key, inner, rfl, found, shows⟩
  rw [resolve_reference, namedType_undeclared undeclared]
  refine both.bind fun ids graph traced given => ?_
  obtain ⟨_, key, inner, rfl, found, shows⟩ := given
  have built : Traces _ (recordType key inner) fun graph id => (∃ shape,
      graph.Stands id (.object shape) ∧ (graph.kind key = .primitive .string →
        shape = ⟨[], some inner⟩)) ∧ graph.nodes[key]? = some ⟨.primitive .string, Keyword.string.text⟩ ∧
          graph.Reduces depth inner (.ofAlternatives alternatives) := traces_recordType.carry _
  obtain ⟨traced, extended, ⟨shape, stands, same⟩, found, reduces⟩ := built graph traced
    ⟨⟨lt_size_of_getElem? found, shows.lt_size⟩, found, shows.reduces positive⟩
  rw [same (Graph.kind_of_getElem? found)] at stands
  exact ⟨traced, extended, .single (Graph.offers_record stands reduces)⟩

/-! ### Objects -/

theorem upsertProperty_of_fresh {properties : List Property} {property : Property}
    (fresh : ∀ other ∈ properties, other.name ≠ property.name) :
    upsertProperty properties property = properties ++ [property] := by
  induction properties with
  | nil => rfl
  | cons first rest ih =>
    rw [upsertProperty, if_neg (fresh first List.mem_cons_self),
      ih fun other member => fresh other (List.mem_cons_of_mem _ member)]
    rfl

theorem Graph.Declares.mono {graph : Graph} {depth depth' : Nat} {property : Property} {field : Field}
    (declares : graph.Declares depth property field) (less : depth ≤ depth') :
    graph.Declares depth' property field := by
  obtain ⟨outline, reduces, same⟩ := declares.reads
  exact ⟨declares.own, declares.present, outline, reduces.mono less, same⟩

instance (depth : Nat) (properties : List Property) (fields : List Field) :
    Kept fun graph => List.Forall₂ (graph.Declares depth) properties fields :=
  ⟨fun keeps declares => declares.imp fun _ _ declares => by
    obtain ⟨outline, reduces, same⟩ := declares.reads
    exact ⟨declares.own, declares.present, outline, reduces.keep keeps, same⟩⟩

/-- A type and a keyword side by side show the alternatives of both. -/
theorem traces_beside {type : TypeExpr} {keyword : Keyword} {depth : Nat}
    {alternatives : List Alternative} {alternative : Alternative} (positive : 0 < depth)
    (own : Traces (fun _ => True) (resolve symbols deeper scope type)
      fun graph id => graph.Shows depth id alternatives)
    (other : Traces (fun _ => True) (resolve symbols deeper scope (.keyword keyword))
      fun graph id => graph.Shows 1 id [alternative]) :
    Traces (fun _ => True) (resolve symbols deeper scope (.union [type, .keyword keyword]))
      fun graph id => graph.Shows (depth + 1) id (alternatives ++ [alternative]) := by
  have second := other.conclude fun _ _ shows => shows.mono (Nat.succ_le_of_lt positive)
  exact traces_union (traces_alternatives_cons own
    (traces_alternatives_cons second traces_alternatives_nil))

/-! ### All builders -/

mutual

/-- **The type of a builder is resolved to one that shows its alternatives.** -/
theorem traces_builder (further : deeper.Traces) (lists : symbols.type? "Array" = none)
    (mappings : symbols.type? "Record" = none) : ∀ builder : Builder, builder.isAdmissible = true →
      Traces (fun _ => True) (resolve symbols deeper scope builder.type)
        fun graph id => graph.Shows builder.depth id builder.alternatives
  | .leaf one, admissible => by
    rw [Builder.type, Builder.depth, Builder.alternatives]
    exact traces_leaf_type one admissible
  | .id table, admissible => by
    rw [Builder.type, Builder.depth, Builder.alternatives]
    exact traces_identifier further admissible
  | .array element, admissible => by
    rw [Builder.type, Builder.depth, Builder.alternatives]
    exact traces_list element.depth_pos lists (traces_builder further lists mappings element admissible)
  | .record value, admissible => by
    rw [Builder.type, Builder.depth, Builder.alternatives]
    exact traces_mapping value.depth_pos mappings
      (traces_builder further lists mappings value admissible)
  | .object fields, admissible => by
    rw [Builder.isAdmissible, Bool.and_eq_true, Bool.and_eq_true, decide_eq_true_eq] at admissible
    rw [Builder.type, Builder.depth, Builder.alternatives, resolve]
    have start : Traces (fun _ => True)
        (resolveMembers symbols deeper scope ⟨[], none⟩ (FieldBuilder.members fields)) _ :=
      (traces_fields further lists mappings fields [] admissible.2 admissible.1.2).weaken
        fun _ _ _ member => absurd member List.not_mem_nil
    refine start.bind fun shape graph traced given => ?_
    obtain ⟨_, added, rfl, inside, declares⟩ := given
    have built : Traces _ (objectType ⟨[] ++ added, none⟩) fun graph id =>
        graph.Stands id (.object ⟨[] ++ added, none⟩) ∧
          List.Forall₂ (graph.Declares (FieldBuilder.depths fields)) added (FieldBuilder.fields fields) :=
      traces_objectType.carry _
    obtain ⟨traced, extended, stands, declares⟩ := built graph traced
      ⟨forall_mem_parts_object.mpr ⟨inside, fun _ found => by cases found⟩, declares⟩
    have present : added ≠ [] := by
      rintro rfl
      cases fields with
      | nil => cases admissible.1.1
      | cons first rest =>
        obtain ⟨name, builder⟩ := first
        rw [FieldBuilder.fields] at declares
        cases declares
    exact ⟨traced, extended, .single (Graph.offers_object stands present declares)⟩
  | .union members, admissible => by
    rw [Builder.isAdmissible, Bool.and_eq_true] at admissible
    have all := traces_members further lists mappings members admissible.2
    rw [Builder.type, Builder.depth, Builder.alternatives]
    match members with
    | [] => cases admissible.1
    | [single] =>
      rw [Builder.areAdmissible, Bool.and_eq_true] at admissible
      have deep : single.depth ≤ Builder.depths [single] + 1 := by
        rw [Builder.depths]
        omega
      rw [Builder.memberAlternatives, Builder.memberAlternatives, List.flatten_singleton]
      exact (traces_builder further lists mappings single admissible.2.1).conclude
        fun _ _ shows => shows.mono deep
    | first :: second :: rest =>
      rw [Builder.types, Builder.types] at all ⊢
      exact traces_union all
  | .optional inner, admissible => by
    rw [Builder.type, Builder.depth, Builder.alternatives]
    exact traces_beside inner.depth_pos (traces_builder further lists mappings inner admissible)
      traces_undefined
  | .nullable inner, admissible => by
    rw [Builder.type, Builder.depth, Builder.alternatives]
    exact traces_beside inner.depth_pos (traces_builder further lists mappings inner admissible)
      (traces_leaf_type .null rfl)

theorem traces_members (further : deeper.Traces) (lists : symbols.type? "Array" = none)
    (mappings : symbols.type? "Record" = none) : ∀ members : List Builder,
      Builder.areAdmissible members = true →
      Traces (fun _ => True) (resolveAlternatives symbols deeper scope (Builder.types members))
        fun graph ids => List.Forall₂ (graph.Offers (Builder.depths members)) ids
          (Builder.memberAlternatives members).flatten
  | [], _ => by
    rw [Builder.types, Builder.memberAlternatives]
    exact traces_alternatives_nil
  | builder :: rest, admissible => by
    rw [Builder.areAdmissible, Bool.and_eq_true] at admissible
    have own := (traces_builder further lists mappings builder admissible.1).conclude
      fun _ _ shows => shows.mono (Nat.le_max_left _ (Builder.depths rest))
    have others := (traces_members further lists mappings rest admissible.2).conclude
      fun _ _ offers => offers.imp fun _ _ offers => offers.mono (Nat.le_max_right builder.depth _)
    rw [Builder.types, Builder.memberAlternatives, Builder.depths, List.flatten_cons]
    exact traces_alternatives_cons own others

theorem traces_fields (further : deeper.Traces) (lists : symbols.type? "Array" = none)
    (mappings : symbols.type? "Record" = none) : ∀ (fields : List FieldBuilder)
    (properties : List Property), FieldBuilder.areAdmissible fields = true →
      (properties.map Property.name ++ fields.map FieldBuilder.name).Nodup →
      Traces (fun graph => ∀ property ∈ properties, property.type < graph.nodes.size)
        (resolveMembers symbols deeper scope ⟨properties, none⟩ (FieldBuilder.members fields))
        fun graph shape => ∃ added, shape = ⟨properties ++ added, none⟩ ∧
          (∀ property ∈ properties ++ added, property.type < graph.nodes.size) ∧
          List.Forall₂ (graph.Declares (FieldBuilder.depths fields)) added (FieldBuilder.fields fields)
  | [], properties, _, _ => by
    rw [FieldBuilder.members, resolveMembers, FieldBuilder.fields]
    exact .pure fun graph _ inside =>
      ⟨[], by rw [List.append_nil], by rwa [List.append_nil], .nil⟩
  | ⟨name, builder⟩ :: rest, properties, admissible, distinct => by
    rw [FieldBuilder.areAdmissible, Bool.and_eq_true, Bool.and_eq_true] at admissible
    have own : Traces (fun graph => ∀ property ∈ properties, property.type < graph.nodes.size)
        (resolve symbols deeper scope builder.type)
        fun graph id => graph.Shows builder.depth id builder.alternatives :=
      (traces_builder further lists mappings builder admissible.1.2).weaken fun _ _ => trivial
    rw [FieldBuilder.members, resolveMembers, FieldBuilder.fields, FieldBuilder.depths]
    refine own.bind fun id => ?_
    have fresh : ∀ other ∈ properties, other.name ≠ name := by
      intro other member same
      rw [List.map_cons, List.nodup_append] at distinct
      exact distinct.2.2 other.name (List.mem_map_of_mem member) name List.mem_cons_self same
    have distinct' : ((properties ++ [(⟨name, id, false⟩ : Property)]).map Property.name ++
        rest.map FieldBuilder.name).Nodup := by
      rw [List.map_append, List.append_assoc]
      exact distinct
    dsimp only
    rw [upsertProperty_of_fresh fresh]
    refine ((traces_fields further lists mappings rest _ admissible.2 distinct').carry fun graph =>
      graph.Reduces builder.depth id (.ofAlternatives builder.alternatives)).imp ?_ ?_
    · intro graph ⟨inside, shows⟩
      exact ⟨List.forall_mem_append.mpr ⟨inside, List.forall_mem_singleton.mpr shows.lt_size⟩,
        shows.reduces builder.depth_pos⟩
    · rintro graph shape ⟨⟨added, rfl, inside, declares⟩, reduces⟩
      have first : graph.Declares (max builder.depth (FieldBuilder.depths rest)) ⟨name, id, false⟩
          (.declare name (.ofAlternatives builder.alternatives) false) :=
        ⟨Bool.not_eq_true' _ ▸ admissible.1.1, rfl, _, reduces.mono (Nat.le_max_left _ _), rfl⟩
      rw [List.append_assoc] at inside ⊢
      exact ⟨⟨name, id, false⟩ :: added, rfl, inside, .cons first
        (declares.imp fun _ _ declares => declares.mono (Nat.le_max_right _ _))⟩

end

end Resolve

/-! ### Values and exports -/

/-- The type of a value that is declared with a builder's type shows the builder's alternatives. -/
theorem shows_valueType {symbols : Symbols} (keeps : symbols.KeepsIdentifiers)
    (lists : symbols.type? "Array" = none) (mappings : symbols.type? "Record" = none)
    {builder : Builder} (admissible : builder.isAdmissible = true) {name : String}
    (declares : symbols.value? name = some builder.type) {graph : Graph} (traced : graph.Traced)
    (free : graph.values.lookup name = none) (idle : graph.resolving = []) :
    (valueType symbols name graph).2.Shows builder.depth (valueType symbols name graph).1
      builder.alternatives := by
  have further := Deeper.traces_ofLevels keeps (maximalDepth + symbols.values.length + 1)
  have start : { graph with resolving := name :: graph.resolving }.Traced :=
    traced.remember rfl traced.keywords traced.literals traced.instances traced.values
  have resolved : Traces (fun _ => True) (resolve symbols (.ofLevels symbols _) [] builder.type) _ :=
    traces_builder further lists mappings builder admissible
  obtain ⟨_, _, shows⟩ := resolved _ start trivial
  have same : valueType symbols name graph = valueTypeWith symbols
      (.ofLevels symbols (maximalDepth + symbols.values.length + 1)) name graph := rfl
  have asked : name ∉ graph.resolving := idle ▸ List.not_mem_nil
  rw [same, valueTypeWith_declared free declares, if_neg asked]
  refine Graph.Shows.keep ?_ shows
  exact fun _ _ found => found

/-- **An exported value of a builder's type is reduced to the validator of the builder's
alternatives**, whatever was exported before. -/
theorem reduce_export {declarations : List Item}
    (free : ∀ item ∈ declarations, ∀ name, declaredTypeName? item = some name →
      name ≠ "Array" ∧ name ≠ "Record" ∧ namesIdentifier name.toList = false)
    {builder : Builder} (admissible : builder.isAdmissible = true)
    (shallow : builder.depth ≤ maximalNesting) {name localName : String}
    (exported : (Symbols.ofItems declarations).exportedValue? name = some localName)
    (typed : (Symbols.ofItems declarations).value? localName = some builder.type)
    {earlier : List String}
    (fresh : (graphAfter (.ofItems declarations) earlier .initial).values.lookup localName = none) :
    ∃ id graph, exportType? (.ofItems declarations) name
      (graphAfter (.ofItems declarations) earlier .initial) = (some id, graph) ∧
        (reduce graph id).outline = .ofAlternatives builder.alternatives := by
  have keeps := Symbols.keepsIdentifiers_ofItems fun item member name declares =>
    (free item member name declares).2.2
  have lists : (Symbols.ofItems declarations).type? "Array" = none :=
    Symbols.type?_ofItems fun item member same => (free item member _ same).1 rfl
  have mappings : (Symbols.ofItems declarations).type? "Record" = none :=
    Symbols.type?_ofItems fun item member same => (free item member _ same).2.1 rfl
  have traced := graphAfter_traced keeps earlier Graph.traced_initial
  have idle := (graphAfter_recorded (.ofItems declarations) earlier).1.resolving
  have shows := shows_valueType keeps lists mappings admissible typed traced fresh idle
  refine ⟨_, _, exportType?_of_some exported _, ?_⟩
  obtain ⟨result, reduced, outline⟩ := shows.reduces builder.depth_pos _ (fun _ _ found => found)
    (maximalNesting + 1) Trail.empty (Nat.le_succ_of_le shallow) (by rwa [Trail.empty, Nat.zero_add])
    fun _ member => by cases member
  rw [reduce, reduceOn, reduced]
  exact outline

end SwiftBindings.TypeGraph

namespace SwiftBindings

open Declared Reduction Script TypeGraph

/-! ### Fields of tables -/

/-- In the schema definition of the module, the field of the table stands with the term: below calls
that add indexes, the table is a call of `defineTable` with an object that has the term under the
field's name. -/
def Script.Environment.DeclaresField (env : Environment) (table field : String) (term : Term) : Prop :=
  ∃ argument others tables value steps last call entries,
    env.schemaDefinition? = some (argument :: others) ∧
    (env.resolve argument).form = .object tables ∧ (table, value) ∈ env.members tables ∧
    env.descend steps (env.resolve value) = some last ∧ env.indexed? last = none ∧
    last.call? = some call ∧ call.name = some "defineTable" ∧
    call.arguments.head?.bind env.objectEntries? = some entries ∧ (field, term) ∈ env.members entries

section Fields

variable (env : Environment)

theorem Script.Environment.table?_of_descends (name : String) {steps : Nat} {term last : Term}
    (descends : env.descend steps term = some last) (indexes : List Index) :
    ∃ indexes', env.table? name indexes term = env.table? name indexes' last := by
  induction steps generalizing term indexes with
  | zero =>
    cases descends
    exact ⟨indexes, rfl⟩
  | succ steps ih =>
    obtain ⟨below, added, descends⟩ := Option.bind_eq_some_iff.mp descends
    obtain ⟨index, same⟩ := env.table?_of_indexed name indexes added
    rw [same]
    exact ih descends (index :: indexes)

theorem table_of_tablesOfEntries {entries : Members} {tables : List Table}
    (read : tablesOfEntries env entries = some (.ok tables)) {name : String} {value : Term}
    (member : (name, value) ∈ entries) :
    ∃ table ∈ tables, env.table? name [] (env.resolve value) = some (.ok table) := by
  induction entries generalizing tables with
  | nil => cases member
  | cons entry rest ih =>
    obtain ⟨first, held⟩ := entry
    rw [tablesOfEntries] at read
    obtain ⟨found, here, read⟩ := Option.bind_eq_some_iff.mp read
    cases found with
    | error fault => cases read
    | ok table =>
      obtain ⟨others, more, same⟩ := Option.map_eq_some_iff.mp read
      cases others with
      | error fault => cases same
      | ok others =>
        cases same
        rcases List.mem_cons.mp member with same | inside
        · cases same
          exact ⟨table, List.mem_cons_self, here⟩
        · obtain ⟨table, held, read⟩ := ih more inside
          exact ⟨table, List.mem_cons_of_mem _ held, read⟩

/-- A declared field is read with the validator of its term. -/
theorem Script.Environment.DeclaresField.read {table field : String} {term : Term}
    (declares : env.DeclaresField table field term) {tables : List Table}
    (read : schemaTables env = some (.ok tables)) :
    ∃ found ∈ tables, found.name = table ∧
      .declare field (validatorTo env maximalSteps term) false ∈ found.fields := by
  obtain ⟨argument, others, literal, value, steps, last, call, entries, defined, form, member,
    descends, ends, called, named, object, inside⟩ := declares
  rw [schemaTables, defined] at read
  obtain ⟨result, all, same⟩ := Option.map_eq_some_iff.mp read
  cases result with
  | error fault => cases same
  | ok result =>
    cases same
    rw [tablesOf, form] at all
    obtain ⟨found, held, here⟩ := table_of_tablesOfEntries env all member
    obtain ⟨indexes, whole⟩ := env.table?_of_descends table descends []
    have given : Table.ofCall env table indexes call =
        .ok ⟨table, fieldsOf env (validatorTo env maximalSteps) entries, indexes⟩ := by
      rw [Table.ofCall, named, if_neg (by simp), object]
    rw [whole, env.table?_of_call table ends called, given] at here
    cases here
    exact ⟨_, held, rfl, List.mem_map_of_mem inside⟩

end Fields

/-! ### Agreement -/

/-- **A field declared as a builder and an exported value of the builder's type have the same
validator**, up to the keys of mappings and the texts of unknown values. The declaration file leaves
lists, mappings and identifier types to the framework; what it exports before makes no difference. -/
theorem field_agrees_with_export {builder : Builder} (admissible : builder.isAdmissible = true)
    (shallow : builder.depth ≤ maximalNesting) {path : String} {items : List ModuleItem}
    {schema : Schema} (read : Schema.ofItems? path items = some (.ok schema))
    {table field : String} {term : Term} (declares : (Environment.ofItems items).DeclaresField table field term)
    (written : builder.IsWritten (.ofItems items) term) {declarations : List Item}
    (free : ∀ item ∈ declarations, ∀ name, declaredTypeName? item = some name →
      name ≠ "Array" ∧ name ≠ "Record" ∧ namesIdentifier name.toList = false)
    {name localName : String}
    (exported : (Symbols.ofItems declarations).exportedValue? name = some localName)
    (typed : (Symbols.ofItems declarations).value? localName = some builder.type)
    (earlier : List String)
    (fresh : (graphAfter (.ofItems declarations) earlier .initial).values.lookup localName = none) :
    ∃ found ∈ schema.tables, found.name = table ∧ ∃ declared ∈ found.fields, declared.name = field ∧
      ∃ id graph, exportType? (.ofItems declarations) name
        (graphAfter (.ofItems declarations) earlier .initial) = (some id, graph) ∧
          declared.schema.outline = (reduce graph id).outline := by
  obtain ⟨result, tables, same⟩ := Option.map_eq_some_iff.mp read
  cases result with
  | error fault => cases same
  | ok result =>
    cases same
    obtain ⟨found, held, named, inside⟩ := declares.read _ tables
    obtain ⟨id, graph, resolved, outline⟩ :=
      reduce_export free admissible shallow exported typed fresh
    have enough : builder.depth ≤ maximalSteps := Nat.le_trans shallow (by decide)
    refine ⟨found, held, named, _, inside, rfl, id, graph, resolved, ?_⟩
    rw [outline]
    exact builder.validatorTo_outline admissible enough written

/-- An optional identifier of a row. -/
def optionalIdentifier : Builder := .optional (.id "u")

/-- Its calls in a table definition. -/
def optionalIdentifierTerm : Term :=
  ⟨.call ⟨.member ⟨.name "v", "v"⟩ "optional", "v.optional"⟩
    [⟨.call ⟨.member ⟨.name "v", "v"⟩ "id", "v.id"⟩ [⟨.string "u", "'u'"⟩], "v.id('u')"⟩],
    "v.optional(v.id('u'))"⟩

/-- A table that has it as its one field. -/
def optionalIdentifierTable : Term :=
  ⟨.call ⟨.name "defineTable", "defineTable"⟩
    [⟨.object [.property "f" optionalIdentifierTerm], "\x7bf:v.optional(v.id('u'))\x7d"⟩],
    "defineTable(\x7bf:v.optional(v.id('u'))\x7d)"⟩

/-- A module that defines a schema of this table. -/
def optionalIdentifierItems : List ModuleItem :=
  [.binding "s" ⟨.call ⟨.name "defineSchema", "defineSchema"⟩
    [⟨.object [.property "t" optionalIdentifierTable],
      "\x7bt:defineTable(\x7bf:v.optional(v.id('u'))\x7d)\x7d"⟩],
    "defineSchema(\x7bt:defineTable(\x7bf:v.optional(v.id('u'))\x7d)\x7d)"⟩]

/-- The text of the module. -/
def optionalIdentifierSource : String :=
  "const s=defineSchema(\x7bt:defineTable(\x7bf:v.optional(v.id('u'))\x7d)\x7d)"

theorem readModule_optionalIdentifier :
    readModule optionalIdentifierSource = .ok optionalIdentifierItems := by
  rw [optionalIdentifierSource]
  decide +kernel

/-- The field and an exported value of its type agree. -/
theorem optionalIdentifier_agrees :
    let symbols := Symbols.ofItems [.value "a" optionalIdentifier.type true]
    ∃ schema, Schema.read? "schema.ts" optionalIdentifierSource = some (.ok schema) ∧
      ∃ found ∈ schema.tables, found.name = "t" ∧ ∃ declared ∈ found.fields, declared.name = "f" ∧
        ∃ id graph, exportType? symbols "a" .initial = (some id, graph) ∧
          declared.schema.outline = (reduce graph id).outline := by
  intro symbols
  have called : optionalIdentifierTable.call? = some ⟨none, some "defineTable", _⟩ := rfl
  have table : (Environment.ofItems optionalIdentifierItems).table? "t" [] optionalIdentifierTable =
      some (.ok ⟨"t", [.declare "f" ⟨.id (some "u"), true, false⟩ false], []⟩) := by
    rw [Script.Environment.table?_of_call _ "t" rfl called []]
    rfl
  have read : Schema.read? "schema.ts" optionalIdentifierSource = some (.ok ⟨"schema.ts",
      [⟨"t", [.declare "f" ⟨.id (some "u"), true, false⟩ false], []⟩]⟩) := by
    rw [Schema.read?_of_ok readModule_optionalIdentifier]
    show ((tablesOfEntries _ [("t", optionalIdentifierTable)]).map _).map _ = _
    rw [tablesOfEntries]
    show ((((Environment.ofItems optionalIdentifierItems).table? "t" []
      optionalIdentifierTable).bind _).map _).map _ = _
    rw [table]
    rfl
  have declares : (Environment.ofItems optionalIdentifierItems).DeclaresField "t" "f"
      optionalIdentifierTerm :=
    ⟨_, [], _, _, 0, _, _, _, rfl, rfl, List.mem_singleton_self _, rfl, rfl, rfl, rfl, rfl,
      List.mem_singleton_self _⟩
  have written : optionalIdentifier.IsWritten (.ofItems optionalIdentifierItems)
      optionalIdentifierTerm :=
    ⟨_, _, [], rfl, _, _, [], rfl, rfl⟩
  have free : ∀ item ∈ [Item.value "a" optionalIdentifier.type true], ∀ name,
      declaredTypeName? item = some name →
        name ≠ "Array" ∧ name ≠ "Record" ∧ namesIdentifier name.toList = false := by
    intro item member name declares
    rw [List.mem_singleton.mp member] at declares
    cases declares
  exact ⟨_, read, field_agrees_with_export (by decide) (by decide)
    (Schema.read?_of_ok readModule_optionalIdentifier ▸ read) declares written free rfl rfl [] rfl⟩

end SwiftBindings
