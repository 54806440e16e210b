/-
**Properties as they are declared.**

A type literal may declare a name more than once, an interface may declare names that its bases have,
and the parts of an intersection may share names. In a type literal and along the bases of an interface
the last declaration of a name decides (`latest`), in an intersection the first one (`earliest`); either
way each name has one property, in the place where the name is declared first.

`Graph.Assembled` says of a type in a graph that it comes from type literals and interfaces alone, and
lists what they declare. Its rules follow the runs in which such types get their structure; a declared
type that was asked for stands in every later graph (`InstanceRun.StartsIn.standsIn`), and so does a type
literal. From the rules follow the properties of the type (`Graph.Assembled.propertiesWithin_eq`) and how
its text starts (`Graph.Assembled.startsWith`), so that nothing but its own name can make an identifier
of it (`Graph.Assembled.identifierTable?_eq_none`).
-/

import SwiftBindings.Proofs.Reduction.OriginRuns
import SwiftBindings.Proofs.Repetitions
import SwiftBindings.Proofs.TypeGraph.PropertyNames

namespace SwiftBindings.TypeGraph

open Declared Reduction

/-! ### One property for each name -/

/-- The names of properties, each where it stands first. -/
def distinctNames (properties : List Property) : List String :=
  (properties.map Property.name).eraseDups

/-- The first property of a name. -/
def firstOf? (properties : List Property) (name : String) : Option Property :=
  properties.find? fun property => property.name == name

/-- The last property of a name. -/
def lastOf? (properties : List Property) (name : String) : Option Property :=
  properties.reverse.find? fun property => property.name == name

/-- One property for each name, the first one. -/
def earliest (properties : List Property) : List Property :=
  (distinctNames properties).filterMap (firstOf? properties)

/-- One property for each name, the last one, in the place of the first. -/
def latest (properties : List Property) : List Property :=
  (distinctNames properties).filterMap (lastOf? properties)

theorem firstOf?_concat (properties : List Property) (property : Property) (name : String) :
    firstOf? (properties ++ [property]) name =
      (firstOf? properties name).or (if property.name = name then some property else none) := by
  rw [firstOf?, firstOf?, List.find?_append, List.find?_singleton]
  simp only [beq_iff_eq]

theorem lastOf?_concat (properties : List Property) (property : Property) (name : String) :
    lastOf? (properties ++ [property]) name =
      if property.name = name then some property else lastOf? properties name := by
  rw [lastOf?, lastOf?, List.reverse_append, List.reverse_singleton, List.singleton_append,
    List.find?_cons]
  by_cases same : property.name = name
  · rw [beq_iff_eq.mpr same, if_pos same]
  · rw [beq_false_of_ne same, if_neg same]

section Names

variable {properties : List Property} {name : String}

theorem mem_distinctNames : name ∈ distinctNames properties ↔ name ∈ properties.map Property.name :=
  List.mem_eraseDups

theorem exists_firstOf? (member : name ∈ distinctNames properties) :
    ∃ property, firstOf? properties name = some property ∧ property.name = name := by
  obtain ⟨property, held, rfl⟩ := List.mem_map.mp (mem_distinctNames.mp member)
  cases found : firstOf? properties property.name with
  | none => simpa using List.find?_eq_none.mp found property held
  | some first => exact ⟨first, rfl, by simpa using List.find?_some found⟩

theorem exists_lastOf? (member : name ∈ distinctNames properties) :
    ∃ property, lastOf? properties name = some property ∧ property.name = name := by
  have reversed : name ∈ distinctNames properties.reverse := by
    rw [mem_distinctNames] at member ⊢
    rwa [List.map_reverse, List.mem_reverse]
  exact exists_firstOf? reversed

/-- Where each name is found, the found properties have these names. -/
theorem map_name_filterMap {find : String → Option Property} {names : List String}
    (finds : ∀ name ∈ names, ∃ property, find name = some property ∧ property.name = name) :
    (names.filterMap find).map Property.name = names := by
  induction names with
  | nil => rfl
  | cons name rest ih =>
    obtain ⟨property, found, same⟩ := finds name List.mem_cons_self
    rw [List.filterMap_cons_some found, List.map_cons, same,
      ih fun other member => finds other (List.mem_cons_of_mem _ member)]

@[simp] theorem names_earliest (properties : List Property) :
    (earliest properties).map Property.name = distinctNames properties :=
  map_name_filterMap fun _ => exists_firstOf?

@[simp] theorem names_latest (properties : List Property) :
    (latest properties).map Property.name = distinctNames properties :=
  map_name_filterMap fun _ => exists_lastOf?

end Names

/-- Putting in a property changes what is found under its name, and adds the name at the end if it is
new. -/
theorem upsertProperty_filterMap {find after : String → Option Property} {names : List String}
    {property : Property} (distinct : names.Nodup)
    (finds : ∀ name ∈ names, ∃ property, find name = some property ∧ property.name = name)
    (changed : ∀ name, after name = if property.name = name then some property else find name) :
    upsertProperty (names.filterMap find) property =
      (if property.name ∈ names then names else names ++ [property.name]).filterMap after := by
  have added : after property.name = some property := (changed _).trans (if_pos rfl)
  induction names with
  | nil => rw [if_neg List.not_mem_nil, List.nil_append, List.filterMap_cons_some added]; rfl
  | cons name rest ih =>
    obtain ⟨first, found, same⟩ := finds name List.mem_cons_self
    have others := fun other member => finds other (List.mem_cons_of_mem name member)
    obtain ⟨outside, distinct⟩ := List.nodup_cons.mp distinct
    rw [List.filterMap_cons_some found, upsertProperty, same]
    by_cases here : property.name = name
    · subst here
      have untouched : rest.filterMap find = rest.filterMap after := by
        refine List.filterMap_congr fun other member => ?_
        rw [changed, if_neg]
        rintro rfl
        exact outside member
      rw [if_pos rfl, if_pos List.mem_cons_self, List.filterMap_cons_some added, untouched]
    · have kept : after name = some first := by rw [changed, if_neg here, found]
      rw [if_neg (Ne.symm here), ih distinct others]
      by_cases inside : property.name ∈ rest
      · rw [if_pos inside, if_pos (List.mem_cons_of_mem _ inside), List.filterMap_cons_some kept]
      · rw [if_neg inside, if_neg (by simp [here, inside]), List.cons_append,
          List.filterMap_cons_some kept]

/-- **Putting in a property makes it the last one of its name.** -/
theorem upsertProperty_latest (properties : List Property) (property : Property) :
    upsertProperty (latest properties) property = latest (properties ++ [property]) := by
  have distinct : (distinctNames properties).Nodup := nodup_eraseDups _
  rw [latest, upsertProperty_filterMap distinct (fun _ => exists_lastOf?)
    (lastOf?_concat properties property),
    latest, distinctNames, distinctNames, List.map_append, List.map_singleton, eraseDups_concat]
  simp only [List.mem_eraseDups]

theorem foldl_upsertProperty_latest (properties added : List Property) :
    added.foldl upsertProperty (latest properties) = latest (properties ++ added) := by
  induction added generalizing properties with
  | nil => rw [List.foldl_nil, List.append_nil]
  | cons property rest ih =>
    rw [List.foldl_cons, upsertProperty_latest, ih, List.append_assoc, List.singleton_append]

/-- A property of a new name is the first one of it. -/
theorem earliest_concat (properties : List Property) (property : Property) :
    earliest (properties ++ [property]) =
      if property.name ∈ properties.map Property.name then earliest properties
      else earliest properties ++ [property] := by
  have still : ∀ name ∈ distinctNames properties,
      firstOf? (properties ++ [property]) name = firstOf? properties name := by
    intro name member
    obtain ⟨first, found, _⟩ := exists_firstOf? member
    rw [firstOf?_concat, found, Option.some_or]
  rw [earliest, distinctNames, List.map_append, List.map_singleton, eraseDups_concat]
  split
  · exact List.filterMap_congr still
  · rename_i new
    have absent : firstOf? properties property.name = none :=
      List.find?_eq_none.mpr fun other member same =>
        new (List.mem_map.mpr ⟨other, member, by simpa using same⟩)
    have added : firstOf? (properties ++ [property]) property.name = some property := by
      rw [firstOf?_concat, absent, if_pos rfl, Option.none_or]
    rw [List.filterMap_append, List.filterMap_cons_some added, List.filterMap_nil]
    exact congrArg (· ++ [property]) (List.filterMap_congr still)

/-- **Merging in properties adds those of new names.** -/
theorem mergeProperties_earliest (properties added : List Property) :
    mergeProperties (earliest properties) added = earliest (properties ++ added) := by
  rw [mergeProperties]
  induction added generalizing properties with
  | nil => rw [List.foldl_nil, List.append_nil]
  | cons property rest ih =>
    have held : ((earliest properties).any fun other => other.name == property.name) = true ↔
        property.name ∈ properties.map Property.name := by
      rw [← mem_distinctNames, ← names_earliest, List.any_eq_true, List.mem_map]
      simp only [beq_iff_eq]
    have step : (if (earliest properties).any fun other => other.name == property.name then
        earliest properties else earliest properties ++ [property]) =
          earliest (properties ++ [property]) := by
      rw [earliest_concat]
      exact if_congr held rfl rfl
    rw [List.foldl_cons, step, ih, List.append_assoc, List.singleton_append]

/-- The parts of an intersection in order, the first property of a name deciding. -/
theorem foldl_mergeProperties (list : TypeId → List Property) (parts : List TypeId)
    (properties : List Property) :
    parts.foldl (fun merged part => mergeProperties merged (list part)) (earliest properties) =
      earliest (properties ++ parts.flatMap list) := by
  induction parts generalizing properties with
  | nil => rw [List.foldl_nil, List.flatMap_nil, List.append_nil]
  | cons part rest ih =>
    rw [List.foldl_cons, mergeProperties_earliest, ih, List.flatMap_cons, List.append_assoc]

/-! ### What members write down -/

/-- The key of a property as written, and whether it may be absent. -/
def declaration? : Member → Option (String × Bool)
  | .property name optional _ => some (name, optional)
  | .index _ _ => none

section Written

variable (symbols : Symbols) (deeper : Deeper) (scope : Scope)

/-- The properties that members write down, with their types as they are resolved one after the
other. -/
def writtenProperties : List Member → Graph → List Property
  | [], _ => []
  | .property name optional type :: rest, graph =>
    ⟨name, (resolve symbols deeper scope type graph).1, optional⟩ ::
      writtenProperties rest (resolve symbols deeper scope type graph).2
  | .index key value :: rest, graph =>
    writtenProperties rest
      (resolve symbols deeper scope value (resolve symbols deeper scope key graph).2).2

variable {symbols deeper scope}

/-- The properties stand in the source, key by key. -/
theorem declarations_writtenProperties (members : List Member) (graph : Graph) :
    (writtenProperties symbols deeper scope members graph).map
        (fun property => (property.name, property.optional)) = members.filterMap declaration? := by
  induction members generalizing graph with
  | nil => rfl
  | cons member rest ih =>
    cases member with
    | property name optional type =>
      rw [writtenProperties, List.map_cons, ih]
      rfl
    | index key value =>
      rw [writtenProperties, ih]
      rfl

/-- Members put in what they write down. -/
theorem properties_resolveMembers (earlier : List Property) (index : Option TypeId)
    (members : List Member) (graph : Graph) :
    (resolveMembers symbols deeper scope ⟨latest earlier, index⟩ members graph).1.properties =
      latest (earlier ++ writtenProperties symbols deeper scope members graph) := by
  induction members generalizing earlier index graph with
  | nil => rw [writtenProperties, List.append_nil]; rfl
  | cons member rest ih =>
    cases member with
    | property name optional type =>
      rw [resolveMembers_property, upsertProperty_latest, ih, writtenProperties, List.append_assoc,
        List.singleton_append]
    | index key value =>
      have unchanged : ∀ (kind : Kind) (value : TypeId), ∃ index',
          ObjectShape.indexed ⟨latest earlier, index⟩ kind value = ⟨latest earlier, index'⟩ :=
        fun _ _ => ⟨_, congrArg (ObjectShape.mk · _) (ObjectShape.properties_indexed _ _ _)⟩
      obtain ⟨index', same⟩ := unchanged _ _
      rw [resolveMembers_index, same, ih, writtenProperties]

/-- Bases put in the properties that they have when they are copied. -/
theorem properties_resolveBases (earlier : List Property) (index : Option TypeId)
    (bases : List TypeExpr) (graph : Graph) :
    (resolveBases symbols deeper scope ⟨latest earlier, index⟩ bases graph).1.properties =
      latest (earlier ++ (copiedBases symbols deeper scope bases graph).flatMap fun base =>
        base.seen.properties base.type) := by
  induction bases generalizing earlier index graph with
  | nil => rw [copiedBases, List.flatMap_nil, List.append_nil]; rfl
  | cons base rest ih =>
    rw [resolveBases]
    show (resolveBases symbols deeper scope ⟨List.foldl upsertProperty (latest earlier) _, _⟩ rest
      _).1.properties = _
    rw [foldl_upsertProperty_latest, ih, copiedBases, List.flatMap_cons, List.append_assoc]

end Written

section Interface

variable {symbols : Symbols} {declared : Instance} {id : TypeId}
  (run : InstanceRun symbols .none declared id)

/-- The properties that an interface writes down itself. -/
def InstanceRun.written : List Property :=
  match run.definition.body with
  | .interface bases members =>
    writtenProperties symbols (.ofLevels symbols run.levels) run.bound.1 members
      (resolveBases symbols (.ofLevels symbols run.levels) run.bound.1 ⟨[], none⟩ bases run.bound.2).2
  | .typeAlias _ => []

/-- The structure of an interface: the properties of its bases as they were copied, and what it writes
down itself. -/
theorem InstanceRun.body_eq {bases : List TypeExpr} {members : List Member}
    (isInterface : run.definition.body = .interface bases members) :
    ∃ index, run.body.1 = .object
      ⟨latest ((run.copied.flatMap fun base => base.seen.properties base.type) ++ latest run.written),
        index⟩ := by
  let resolved := resolveBases symbols (.ofLevels symbols run.levels) run.bound.1 ⟨[], none⟩ bases
    run.bound.2
  have copied : resolved.1.properties = latest ([] ++ _) :=
    properties_resolveBases [] none bases run.bound.2
  have own : (resolveMembers symbols (.ofLevels symbols run.levels) run.bound.1 ⟨[], none⟩ members
      resolved.2).1.properties = latest ([] ++ _) :=
    properties_resolveMembers [] none members resolved.2
  rw [List.nil_append] at copied own
  rw [InstanceRun.body, InstanceRun.copied, InstanceRun.written, isInterface]
  dsimp only
  rw [← foldl_upsertProperty_latest, ← copied, ← own]
  exact ⟨_, rfl⟩

end Interface

/-! ### How texts start -/

/-- The name, which may be empty, is not that of an identifier type, and has neither dots nor
brackets. -/
structure IsPlainName (name : String) : Prop where
  unopened : '<' ∉ name.toList
  undotted : '.' ∉ name.toList
  other : name ∉ identifierNames

theorem IsPlainName.namesIdentifier {name : String} (plain : IsPlainName name) :
    namesIdentifier name.toList = false := by
  have whole : name.toList.splitOnP (· == '.') = [name.toList] := by
    refine List.splitOnP_eq_singleton fun c member => beq_false_of_ne ?_
    rintro rfl
    exact plain.undotted member
  simp [Reduction.namesIdentifier, whole, plain.other]

/-- The text starts with the name, and what follows starts with no character of a name. -/
def StartsWith (name text : String) : Prop :=
  ∃ rest, text.toList = name.toList ++ rest ∧ ∀ c ∈ rest.head?, isNameChar c = false

theorem StartsWith.append {name text more : String} (starts : StartsWith name text)
    (apart : ∀ c ∈ more.toList.head?, isNameChar c = false) : StartsWith name (text ++ more) := by
  obtain ⟨rest, whole, foreign⟩ := starts
  refine ⟨rest ++ more.toList, by rw [String.toList_append, whole, List.append_assoc], ?_⟩
  cases rest with
  | nil => exact apart
  | cons head tail => exact foreign

/-- A text that starts with a plain name names no identifiers. -/
theorem StartsWith.identifierArgument?_eq_none {name text : String} (starts : StartsWith name text)
    (plain : IsPlainName name) : identifierArgument? text = none := by
  obtain ⟨rest, whole, foreign⟩ := starts
  rw [Option.eq_none_iff_forall_ne_some]
  intro argument found
  obtain ⟨front, inner, same, names, _⟩ := identifierArgument?_eq_some_iff.mp found
  rw [whole] at same
  obtain ⟨more, rfl, following⟩ | ⟨more, cut, opened⟩ := List.append_eq_append_iff.mp same
  · cases more with
    | nil =>
      rw [List.append_nil, plain.namesIdentifier] at names
      cases names
    | cons c more =>
      have named := isNameChar_of_mem names (List.mem_append_right _ (List.mem_cons_self (a := c)))
      rw [following] at foreign
      rw [foreign c rfl] at named
      cases named
  · cases more with
    | nil =>
      rw [List.append_nil] at cut
      rw [← cut, plain.namesIdentifier] at names
      cases names
    | cons c more =>
      obtain ⟨rfl, _⟩ := List.cons.inj opened
      exact plain.unopened (cut ▸ List.mem_append_right _ List.mem_cons_self)

theorem startsWith_objectText (seen : Graph) (shape : ObjectShape) :
    StartsWith "" (seen.objectText shape) := by
  rw [Graph.objectText]
  generalize shape.properties.map seen.propertyText ++ _ = parts
  have brace : ∀ more : String, StartsWith "" ("\x7b" ++ more) := by
    intro more
    refine ⟨("\x7b" ++ more).toList, rfl, ?_⟩
    rw [String.toList_append]
    rintro c ⟨⟩
    decide
  show StartsWith "" (if parts.isEmpty then "\x7b" ++ "\x7d"
    else "\x7b" ++ " " ++ "; ".intercalate parts ++ " \x7d")
  split
  · exact brace _
  · rw [String.append_assoc, String.append_assoc]
    exact brace _

theorem startsWith_referenceText (seen : Graph) (name : String) (arguments : List TypeId) :
    StartsWith name (seen.referenceText name arguments) := by
  have alone : StartsWith name name := ⟨[], (List.append_nil _).symm, fun c member => by cases member⟩
  rw [Graph.referenceText]
  split
  · exact alone
  · rw [String.append_assoc, String.append_assoc]
    refine alone.append ?_
    rw [String.toList_append]
    rintro c ⟨⟩
    decide

/-! ### Types that come from type literals and interfaces alone -/

/-- The name that the text of a type starts with, empty for a type literal, and the properties that are
declared of it. -/
structure Assembly where
  /-- The name. -/
  name : String
  /-- The properties in order of declaration. -/
  properties : List Property

/-- A run of a declared type lies behind its node in the graph, whose text starts with its name. -/
structure InstanceRun.StandsIn {symbols : Symbols} {declared : Instance} {id : TypeId}
    (run : InstanceRun symbols .none declared id) (graph : Graph) : Prop where
  later : run.body.2.Continues graph
  has : graph.HasKind id run.body.1
  starts : StartsWith declared.name (graph.text id)

/-- The graph after a run of a declared type. -/
def InstanceRun.after {symbols : Symbols} {declared : Instance} {id : TypeId}
    (run : InstanceRun symbols .none declared id) : Graph :=
  (leaveInstance id run.body.1 run.body.2).2

/-- The run of a declared type that is asked for in a graph. -/
def InstanceRun.first {symbols : Symbols} {declared : Instance} {definition : Definition}
    (declares : symbols.type? declared.name = some definition) (graph : Graph) (levels : Nat)
    (enough : symbols.room (enterInstance declared graph).2 < levels) :
    InstanceRun symbols .none declared graph.nodes.size where
  definition := definition
  levels := levels
  before := (enterInstance declared graph).2
  declares := declares
  unfinished := enterInstance_hasKind declared
  enough := enough
  clear := congrFun (clearDefinition_unwatched (Clear.passes_ofLevels symbols levels) _ _) _

/-- The run starts in the graph where the declared type is asked for. -/
structure InstanceRun.StartsIn {symbols : Symbols} {declared : Instance} {id : TypeId}
    (run : InstanceRun symbols .none declared id) (graph : Graph) : Prop where
  place : id = graph.nodes.size
  entered : run.before = (enterInstance declared graph).2

section Starts

variable {symbols : Symbols} {declared : Instance} {id : TypeId} {graph : Graph}
  {run : InstanceRun symbols .none declared id} (starts : run.StartsIn graph)

include starts

theorem InstanceRun.StartsIn.body_grows : (enterInstance declared graph).2.GrowsTo run.body.2 := by
  have further := Deeper.keeps_ofLevels symbols .none run.levels
  rw [← starts.entered]
  exact (run.bound_advances further).grows.trans (run.body_advances further).grows

/-- A declared type that is asked for for the first time is added to the graph. -/
theorem InstanceRun.StartsIn.after_grows (free : graph.instances.lookup declared = none) :
    graph.GrowsTo run.after := by
  have step : InstanceStep graph run.body.2 declared := ⟨free, starts.body_grows⟩
  have place := starts.place
  subst place
  exact step.leave_grows (bodyKind_ne_pending _ _ _ _ _)

/-- **A declared type that was asked for stands in every later graph.** -/
theorem InstanceRun.StartsIn.standsIn {later : Graph} (continues : run.after.Continues later) :
    run.StandsIn later := by
  have node : (enterInstance declared graph).2.nodes[id]? =
      some ⟨.pending, graph.referenceText declared.name declared.arguments⟩ := by
    rw [starts.place]
    exact Array.getElem?_push_size
  have unfinished := starts.body_grows.nodes _ _ node
  have finished := continues.nodes _ _ (leaveInstance_node unfinished run.body.1)
    (bodyKind_ne_pending _ _ _ _ _)
  exact {
    later := (leaveInstance_continues ⟨_, unfinished⟩).trans continues
    has := ⟨_, finished⟩
    starts := by
      rw [Graph.text_of_getElem? finished]
      exact startsWith_referenceText _ _ _ }

end Starts

/-- The type comes from type literals and interfaces alone, through at most the given number of
intersections within each other. -/
inductive Graph.Assembled (symbols : Symbols) (graph : Graph) : Nat → TypeId → Assembly → Prop where
  /-- A type literal. -/
  | literal {levels : Nat} {deeper : Deeper} {scope : Scope} {members : List Member} {start : Graph}
    (later : (resolve symbols deeper scope (.object members) start).2.Continues graph) :
    Assembled symbols graph (levels + 1) (resolve symbols deeper scope (.object members) start).1
      ⟨"", latest (writtenProperties symbols deeper scope members start)⟩
  /-- An interface whose bases were finished when they were copied. -/
  | interface {levels : Nat} {declared : Instance} {id : TypeId} {bases : List TypeExpr}
    {members : List Member} {entries : List (TypeId × Assembly)}
    (run : InstanceRun symbols .none declared id) (stands : run.StandsIn graph)
    (isInterface : run.definition.body = .interface bases members)
    (finished : ∀ base ∈ run.copied, base.seen.knowsProperties base.type = true)
    (copied : run.copied.map CopiedBase.type = entries.map Prod.fst)
    (each : ∀ entry ∈ entries, Assembled symbols graph (walkDepth + 1) entry.1 entry.2) :
    Assembled symbols graph (levels + 1) id ⟨declared.name,
      latest (entries.flatMap (fun entry => entry.2.properties) ++ latest run.written)⟩
  /-- An alias that was followed to such a type. -/
  | typeAlias {levels : Nat} {declared : Instance} {id : TypeId} {type : TypeExpr}
    {assembly : Assembly} (run : InstanceRun symbols .none declared id) (stands : run.StandsIn graph)
    (isAlias : run.definition.body = .typeAlias type) (followed : run.body.1 ≠ .opaqueType)
    (target : Assembled symbols graph levels
      (resolve symbols (.ofLevels symbols run.levels) run.bound.1 type run.bound.2).1 assembly) :
    Assembled symbols graph levels id ⟨declared.name, assembly.properties⟩
  /-- An intersection of such types. -/
  | intersection {levels : Nat} {id : TypeId} {entries : List (TypeId × Assembly)}
    (node : graph.nodes[id]? = some ⟨.intersection (entries.map Prod.fst),
      graph.joinedTexts (entries.map Prod.fst) " & "⟩)
    (each : ∀ entry ∈ entries, Assembled symbols graph levels entry.1 entry.2) :
    Assembled symbols graph (levels + 1) id ⟨(entries.head?.map fun entry => entry.2.name).getD "",
      earliest (entries.flatMap fun entry => entry.2.properties)⟩

section Assembled

variable {symbols : Symbols} {graph : Graph} {levels : Nat} {id : TypeId} {assembly : Assembly}

/-- A type literal is an object type with the text of one. -/
theorem literal_node {deeper : Deeper} {scope : Scope} {members : List Member} {start : Graph}
    (later : (resolve symbols deeper scope (.object members) start).2.Continues graph) :
    ∃ seen shape, graph.nodes[(resolve symbols deeper scope (.object members) start).1]? =
        some ⟨.object shape, Graph.objectText seen shape⟩ ∧
      shape.properties = latest (writtenProperties symbols deeper scope members start) := by
  have written : (resolveMembers symbols deeper scope ⟨[], none⟩ members start).1.properties =
      latest ([] ++ _) := properties_resolveMembers [] none members start
  have run : resolve symbols deeper scope (.object members) start =
      objectType (resolveMembers symbols deeper scope ⟨[], none⟩ members start).1
        (resolveMembers symbols deeper scope ⟨[], none⟩ members start).2 := by
    rw [resolve]
    rfl
  rw [run] at later ⊢
  exact ⟨_, _, later.nodes _ _ Array.getElem?_push_size Kind.noConfusion, written⟩

/-- An alias that was followed has the structure of its target. -/
theorem InstanceRun.StandsIn.kind_alias {declared : Instance} {type : TypeExpr}
    {run : InstanceRun symbols .none declared id} (stands : run.StandsIn graph)
    (isAlias : run.definition.body = .typeAlias type) (followed : run.body.1 ≠ .opaqueType) :
    graph.kind id = graph.kind
      (resolve symbols (.ofLevels symbols run.levels) run.bound.1 type run.bound.2).1 := by
  have body : run.body = (Graph.aliasKind
      (resolve symbols (.ofLevels symbols run.levels) run.bound.1 type run.bound.2).2 id
      (resolve symbols (.ofLevels symbols run.levels) run.bound.1 type run.bound.2).1,
      (resolve symbols (.ofLevels symbols run.levels) run.bound.1 type run.bound.2).2) := by
    rw [InstanceRun.body, isAlias]
    rfl
  have later := stands.later
  rw [stands.has.kind_eq]
  rw [body] at followed later ⊢
  dsimp only at followed later ⊢
  rw [Graph.aliasKind] at followed ⊢
  split
  · rename_i own
    rw [if_pos own] at followed
    exact absurd rfl followed
  · rename_i other
    rw [if_neg other] at followed
    split
    · rename_i pending
      rw [if_pos pending] at followed
      exact absurd rfl followed
    · rename_i settled
      rw [if_neg settled] at followed
      exact ((later.hasKind (Graph.hasKind_of_kind rfl followed) settled).kind_eq).symm

theorem propertiesWithin_congr {other : TypeId} (same : graph.kind id = graph.kind other)
    (levels : Nat) : graph.propertiesWithin levels id = graph.propertiesWithin levels other := by
  cases levels with
  | zero => rfl
  | succ levels => rw [Graph.propertiesWithin, Graph.propertiesWithin, same]

/-- Such a type is an object type or an intersection. -/
theorem Graph.Assembled.isStructured (assembled : graph.Assembled symbols levels id assembly) :
    graph.isStructured id = true := by
  induction assembled with
  | literal later =>
    obtain ⟨_, _, node, _⟩ := literal_node later
    rw [Graph.isStructured, Graph.kind_of_getElem? node]
  | interface run stands isInterface _ _ _ =>
    obtain ⟨_, body⟩ := run.body_eq isInterface
    rw [Graph.isStructured, stands.has.kind_eq, body]
  | typeAlias run stands isAlias followed _ ih =>
    rw [Graph.isStructured, stands.kind_alias isAlias followed]
    exact ih
  | intersection node _ _ => rw [Graph.isStructured, Graph.kind_of_getElem? node]

/-- The entries of the bases list what the bases showed when they were copied. -/
theorem flatMap_copied {declared : Instance} {run : InstanceRun symbols .none declared id}
    (stands : run.StandsIn graph) {bases : List TypeExpr} {members : List Member}
    (isInterface : run.definition.body = .interface bases members)
    (finished : ∀ base ∈ run.copied, base.seen.knowsProperties base.type = true)
    {entries : List (TypeId × Assembly)}
    (copied : run.copied.map CopiedBase.type = entries.map Prod.fst)
    (lists : ∀ entry ∈ entries, graph.properties entry.1 = entry.2.properties) :
    (run.copied.flatMap fun base => base.seen.properties base.type) =
      entries.flatMap fun entry => entry.2.properties := by
  have still : ∀ base ∈ run.copied, base.seen.properties base.type = graph.properties base.type :=
    fun base member => (((run.copied_continue isInterface base member).trans
      stands.later).properties_eq (finished base member)).symm
  calc (run.copied.flatMap fun base => base.seen.properties base.type)
      = (run.copied.map CopiedBase.type).flatMap graph.properties := by
        rw [List.flatMap_map]
        exact List.flatMap_congr still
    _ = entries.flatMap fun entry => graph.properties entry.1 := by rw [copied, List.flatMap_map]
    _ = entries.flatMap fun entry => entry.2.properties := List.flatMap_congr lists

/-- **A type has the properties that are declared of it.** -/
theorem Graph.Assembled.propertiesWithin_eq (assembled : graph.Assembled symbols levels id assembly)
    (more : Nat) : graph.propertiesWithin (levels + more) id = assembly.properties := by
  induction assembled generalizing more with
  | literal later =>
    obtain ⟨_, _, node, written⟩ := literal_node later
    rw [Nat.add_right_comm, Graph.propertiesWithin, Graph.kind_of_getElem? node]
    exact written
  | interface run stands isInterface finished copied each ih =>
    obtain ⟨index, body⟩ := run.body_eq isInterface
    have lists := flatMap_copied stands isInterface finished copied fun entry member => ih entry member 0
    rw [Nat.add_right_comm, Graph.propertiesWithin, stands.has.kind_eq, body, ← lists]
  | typeAlias run stands isAlias followed _ ih =>
    rw [propertiesWithin_congr (stands.kind_alias isAlias followed)]
    exact ih more
  | intersection node each ih =>
    rename_i levels id entries
    have lists : (entries.map Prod.fst).flatMap (graph.propertiesWithin (levels + more)) =
        entries.flatMap fun entry => entry.2.properties := by
      rw [List.flatMap_map]
      exact List.flatMap_congr fun entry member => ih entry member more
    rw [Nat.add_right_comm, Graph.propertiesWithin, Graph.kind_of_getElem? node, ← lists]
    exact foldl_mergeProperties _ _ []

theorem Graph.Assembled.properties_eq
    (assembled : graph.Assembled symbols (walkDepth + 1) id assembly) :
    graph.properties id = assembly.properties :=
  assembled.propertiesWithin_eq 0

/-- Each name is declared once. -/
theorem Graph.Assembled.nodup_names (assembled : graph.Assembled symbols levels id assembly) :
    (assembly.properties.map Property.name).Nodup := by
  induction assembled with
  | literal later =>
    rw [names_latest]
    exact nodup_eraseDups _
  | interface _ _ _ _ _ _ =>
    rw [names_latest]
    exact nodup_eraseDups _
  | typeAlias _ _ _ _ _ ih => exact ih
  | intersection _ _ _ =>
    rw [names_earliest]
    exact nodup_eraseDups _

/-! ### How their texts start -/

theorem startsWith_joinedTexts {first : TypeId} {rest : List TypeId} {name : String}
    (starts : StartsWith name (graph.text first)) :
    StartsWith name (graph.joinedTexts (first :: rest) " & ") := by
  rw [Graph.joinedTexts, List.map_cons]
  cases rest with
  | nil => rwa [List.map_nil, String.intercalate_singleton]
  | cons second rest =>
    rw [List.map_cons, String.intercalate_cons_cons, String.append_assoc]
    refine starts.append ?_
    rw [String.toList_append]
    rintro c ⟨⟩
    decide

/-- The text of a type starts with its name, that of an intersection with the name of the first part. -/
theorem Graph.Assembled.startsWith (assembled : graph.Assembled symbols levels id assembly) :
    StartsWith assembly.name (graph.text id) := by
  induction assembled with
  | literal later =>
    obtain ⟨_, _, node, _⟩ := literal_node later
    rw [Graph.text_of_getElem? node]
    exact startsWith_objectText _ _
  | interface run stands _ _ _ _ _ => exact stands.starts
  | typeAlias run stands _ _ _ _ => exact stands.starts
  | intersection node each ih =>
    rename_i levels id entries
    rw [Graph.text_of_getElem? node]
    cases entries with
    | nil => exact ⟨[], rfl, fun c member => by cases member⟩
    | cons first rest => exact startsWith_joinedTexts (ih first List.mem_cons_self)

/-- No part of such a type is a string, so that no brand makes an identifier of it. -/
theorem Graph.Assembled.brandedTable?_eq_none
    (assembled : graph.Assembled symbols levels id assembly) : brandedTable? graph id = none := by
  induction assembled with
  | literal later =>
    obtain ⟨_, _, node, _⟩ := literal_node later
    rw [brandedTable?, Graph.kind_of_getElem? node]
  | interface run stands isInterface _ _ _ =>
    obtain ⟨_, body⟩ := run.body_eq isInterface
    rw [brandedTable?, stands.has.kind_eq, body]
  | typeAlias run stands isAlias followed _ ih =>
    rw [brandedTable?, stands.kind_alias isAlias followed]
    exact ih
  | intersection node each ih =>
    rw [brandedTable?, Graph.kind_of_getElem? node]
    refine if_neg fun held => ?_
    obtain ⟨part, member, string⟩ := List.any_eq_true.mp held
    obtain ⟨entry, inside, rfl⟩ := List.mem_map.mp member
    have structured := (each entry inside).isStructured
    rw [Graph.isStructured, beq_iff_eq.mp string] at structured
    cases structured

/-- **Such a type is no identifier of rows**, unless it is named like one. -/
theorem Graph.Assembled.identifierTable?_eq_none
    (assembled : graph.Assembled symbols levels id assembly) (plain : IsPlainName assembly.name) :
    identifierTable? graph id = none := by
  rw [identifierTable?, assembled.startsWith.identifierArgument?_eq_none plain]
  exact assembled.brandedTable?_eq_none

end Assembled

/-- **A value whose type is a type literal has a type that comes from it**, after any exports: with the
properties that stand in the source. -/
theorem assembled_of_value (symbols : Symbols) (exports : List String) {name : String} {id : TypeId}
    {members : List Member}
    (found : (graphAfter symbols exports .initial).values.lookup name = some id)
    (declares : symbols.value? name = some (.object members)) (levels : Nat) :
    ∃ properties, (graphAfter symbols exports .initial).Assembled symbols (levels + 1) id
        ⟨"", latest properties⟩ ∧
      properties.map (fun property => (property.name, property.optional)) =
        members.filterMap declaration? := by
  obtain ⟨_, recorded⟩ := graphAfter_recorded symbols exports
  obtain ⟨run, later, rfl⟩ := recorded.values name id found
  have written : run.type = .object members := Option.some.inj (run.declares.symm.trans declares)
  rw [ValueRun.resolved, written] at later ⊢
  exact ⟨_, .literal later, declarations_writtenProperties members run.before⟩

end SwiftBindings.TypeGraph
