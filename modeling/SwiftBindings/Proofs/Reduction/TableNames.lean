/-
**Which tables identifiers name.**

A type is reduced to an identifier of rows exactly where what is left of it without null and absent
values is named as one, or else is a string with a brand (`reduce_shape_eq_id_iff`). Since every text has
an origin, a text that names an identifier type is that of a name with one argument, or it is put
together by an intersection, taken from the source or that of a longer list of arguments, and only looks
like one (`identifierTable?_eq_some_iff`).

A brand tells the literal itself. A text tells what stands between the quotes of the written argument:
the value of a literal where it has no quote and no backslash, and something else where the text of
another argument happens to stand in quotes (`identifier_tables`, `identifierOfUnion_named`).
-/

import SwiftBindings.Proofs.Reduction.OriginRuns
import SwiftBindings.Proofs.Reduction.Visits

namespace SwiftBindings.Reduction

open Declared Text TypeGraph

/-! ### Reducing one type -/

section Reduce

variable {graph : Graph} {reduce : TypeId → Visit Validator} {id : TypeId} {trail : Trail}

/-- No primitive type and no literal is an identifier. -/
theorem primitiveShape?_ne_id {kind : Kind} {table : Option String} :
    primitiveShape? kind ≠ some (.id table) := by
  intro same
  cases kind with
  | primitive keyword => cases keyword <;> cases same
  | _ => cases same

theorem atomValidator?_shape_ne_id (none : identifierTable? graph id = none) {validator : Validator}
    (found : atomValidator? graph id = some validator) (table : Option String) :
    validator.shape ≠ .id table := by
  intro same
  rw [atomValidator?, none] at found
  generalize graph.kind id = kind at found
  cases atom : primitiveShape? kind with
  | some shape =>
    rw [atom] at found
    cases found
    cases same
    exact primitiveShape?_ne_id atom
  | none =>
    rw [atom] at found
    cases kind with
    | primitive keyword => cases keyword <;> cases found <;> cases same
    | _ => cases found <;> cases same

/-- A type that is no union is an identifier only by its text or its brand. -/
theorem identifierTable?_of_classifySingle {table : Option String}
    (same : (classifySingle graph reduce id trail).1.shape = .id table) :
    identifierTable? graph id = some table := by
  cases found : identifierTable? graph id with
  | some other =>
    rw [classifySingle_identifier found] at same
    cases same
    rfl
  | none =>
    exfalso
    rw [classifySingle] at same
    cases atom : atomValidator? graph id with
    | some validator =>
      rw [atom] at same
      exact atomValidator?_shape_ne_id found atom table same
    | none =>
      rw [atom] at same
      cases element : graph.arrayElement? id with
      | some element' =>
        rw [element] at same
        cases same
      | none =>
        rw [element] at same
        cases index : graph.index? id with
        | some value =>
          rw [index] at same
          cases same
        | none =>
          rw [index] at same
          dsimp only at same
          split at same <;> cases same

theorem unionValidator_shape_ne_id (members : List TypeId) (table : Option String) :
    (unionValidator graph members).shape ≠ .id table := by
  rw [unionValidator]
  split
  · exact Shape.noConfusion
  · split
    · exact Shape.noConfusion
    · split <;> exact Shape.noConfusion

/-- The second type is what is left of the first without null and absent values, after the given
number of unions. -/
inductive StripsTo (graph : Graph) : Nat → TypeId → TypeId → Prop where
  /-- A type that is no union stands for itself. -/
  | single {id : TypeId} (single : graph.unionMembers? id = none) : StripsTo graph 0 id id
  /-- A union with one other member stands for what is left of that. -/
  | union {steps : Nat} {id single last : TypeId} {members : List TypeId}
    (found : graph.unionMembers? id = some members)
    (present : members.filter (fun member =>
      !isAbsence (graph.kind member) && !isNull (graph.kind member)) = [single])
    (strips : StripsTo graph steps single last) : StripsTo graph (steps + 1) id last

/-- The number of unions is determined by the type. -/
theorem StripsTo.steps_eq {steps steps' : Nat} {last last' : TypeId}
    (strips : StripsTo graph steps id last) (strips' : StripsTo graph steps' id last') :
    steps = steps' := by
  induction strips generalizing steps' with
  | single single =>
    cases strips' with
    | single => rfl
    | union found => cases single.symm.trans found
  | union found present _ ih =>
    cases strips' with
    | single single => cases found.symm.trans single
    | union found' present' strips' =>
      cases found.symm.trans found'
      cases present.symm.trans present'
      rw [ih strips']

/-- What is left is no union. -/
theorem StripsTo.last_single {steps : Nat} {last : TypeId} (strips : StripsTo graph steps id last) :
    graph.unionMembers? last = none := by
  induction strips with
  | single single => exact single
  | union _ _ _ ih => exact ih

/-- What is reduced to an identifier is one by the text or the brand of what is left of it. -/
theorem stripsTo_of_reduceWithin {levels : Nat} {table : Option String}
    (same : (reduceWithin graph levels id trail).1.shape = .id table) :
    ∃ steps last, StripsTo graph steps id last ∧ trail.depth + steps < maximalNesting ∧
      identifierTable? graph last = some table := by
  induction levels generalizing id trail with
  | zero => cases same
  | succ levels ih =>
    by_cases shallow : trail.depth < maximalNesting
    · by_cases met : id ∈ trail.chain
      · rw [reduceWithin_cycle levels shallow met] at same
        cases same
      · rw [reduceWithin_succ levels shallow met] at same
        cases single : graph.unionMembers? id with
        | none =>
          rw [classify_single single] at same
          exact ⟨0, id, .single single, shallow, identifierTable?_of_classifySingle same⟩
        | some members =>
          rw [classify, single] at same
          dsimp only at same
          generalize present : members.filter (fun member =>
            !isAbsence (graph.kind member) && !isNull (graph.kind member)) = left at same
          rcases left with _ | ⟨last, _ | ⟨second, rest⟩⟩
          · cases same
          · obtain ⟨steps, last, strips, within, found⟩ := ih same
            have deeper : (trail.enter id).depth = trail.depth + 1 := rfl
            exact ⟨steps + 1, last, .union single present strips, by omega, found⟩
          · exact absurd same (unionValidator_shape_ne_id _ table)
    · rw [reduceWithin_deep levels (Nat.le_of_not_lt shallow)] at same
      cases same

/-- What is left of a type decides on it. No type on the trail is met again, since more unions lie
between it and what is left. -/
theorem reduceWithin_of_stripsTo {levels steps : Nat} {last : TypeId} {table : Option String}
    (strips : StripsTo graph steps id last) (found : identifierTable? graph last = some table)
    (within : trail.depth + steps < maximalNesting) (enough : steps < levels)
    (before : ∀ met ∈ trail.chain, ∃ more > steps, ∃ other, StripsTo graph more met other) :
    (reduceWithin graph levels id trail).1.shape = .id table := by
  have new : id ∉ trail.chain := fun met => by
    obtain ⟨more, further, other, strips'⟩ := before id met
    exact Nat.ne_of_lt further (strips.steps_eq strips')
  induction strips generalizing levels trail with
  | single single =>
    obtain ⟨levels, rfl⟩ : ∃ fewer, levels = fewer + 1 := ⟨levels - 1, by omega⟩
    rw [reduceWithin_succ levels (by omega) new, classify_single single,
      classifySingle_identifier found]
    rfl
  | @union steps id single last members union present strips ih =>
    obtain ⟨levels, rfl⟩ : ∃ fewer, levels = fewer + 1 := ⟨levels - 1, by omega⟩
    have inner : (trail.enter id).depth + steps < maximalNesting := by
      have deeper : (trail.enter id).depth = trail.depth + 1 := rfl
      omega
    have before' : ∀ met ∈ (trail.enter id).chain,
        ∃ more > steps, ∃ other, StripsTo graph more met other := by
      intro met member
      rcases List.mem_cons.mp member with rfl | member
      · exact ⟨steps + 1, Nat.lt_succ_self _, last, .union union present strips⟩
      · obtain ⟨more, further, strips'⟩ := before met member
        exact ⟨more, Nat.lt_of_succ_lt further, strips'⟩
    have new' : single ∉ (trail.enter id).chain := fun met => by
      obtain ⟨more, further, other, strips'⟩ := before' single met
      exact Nat.ne_of_lt further (strips.steps_eq strips')
    have reduced := ih found inner (Nat.lt_of_succ_lt_succ enough) before' new'
    rw [reduceWithin_succ levels (by omega) new, classify, union]
    dsimp only
    rw [present]
    exact reduced

end Reduce

/-- **A type is reduced to an identifier where what is left of it is one**, by its text or its brand. -/
theorem reduce_shape_eq_id_iff {graph : Graph} {id : TypeId} {table : Option String} :
    (reduce graph id).shape = .id table ↔ ∃ steps < maximalNesting, ∃ last,
      StripsTo graph steps id last ∧ identifierTable? graph last = some table := by
  constructor
  · intro same
    obtain ⟨steps, last, strips, within, found⟩ := stripsTo_of_reduceWithin same
    exact ⟨steps, by rwa [Trail.empty, Nat.zero_add] at within, last, strips, found⟩
  · rintro ⟨steps, within, last, strips, found⟩
    exact reduceWithin_of_stripsTo strips found (by rwa [Trail.empty, Nat.zero_add])
      (Nat.lt_succ_of_lt within) fun met member => by cases member

/-! ### Brands -/

/-- The property of a part that brands a string. -/
def brand? (graph : Graph) (part : TypeId) : Option Property :=
  match graph.kind part with
  | .object shape => shape.properties.find? fun property => property.name == brandName
  | _ => none

theorem partTable?_eq_map (graph : Graph) :
    partTable? graph = fun part =>
      (brand? graph part).map fun property => graph.stringValue? property.type := by
  funext part
  rw [partTable?, brand?]
  cases graph.kind part <;> rfl

/-- A string has the brand of the first branded part it is intersected with. -/
theorem brandedTable?_eq_some_iff {graph : Graph} {id : TypeId} {table : Option String} :
    brandedTable? graph id = some table ↔ ∃ parts brand, graph.kind id = .intersection parts ∧
      (∃ part ∈ parts, graph.kind part = .primitive .string) ∧
      parts.findSome? (brand? graph) = some brand ∧ graph.stringValue? brand.type = table := by
  rw [brandedTable?]
  constructor
  · intro found
    split at found
    · rename_i parts kind
      split at found
      · rename_i text
        have text' : ∃ part ∈ parts, graph.kind part = .primitive .string := by simpa using text
        rw [partTable?_eq_map, ← Function.comp_def, ← List.map_findSome?, Option.map_eq_some_iff] at found
        obtain ⟨brand, first, same⟩ := found
        exact ⟨parts, brand, kind, text', first, same⟩
      · cases found
    · cases found
  · rintro ⟨parts, brand, kind, text, first, rfl⟩
    have text' : (parts.any fun part => graph.kind part == .primitive .string) = true := by
      simpa using text
    rw [kind]
    dsimp only
    rw [if_pos text', partTable?_eq_map, ← Function.comp_def, ← List.map_findSome?, first]
    rfl

/-! ### Names -/

/-- How a type that is no union tells the table of an identifier. -/
inductive TellsTable (graph : Graph) (id : TypeId) : Option String → Prop where
  /-- It is an identifier type with its argument, whose text stands in quotes or not. -/
  | named {name : String} {argument : TypeId} (names : namesIdentifier name.toList = true)
    (refers : graph.RefersTo id name [argument]) :
    TellsTable graph id (unquoted? (trimWhile isBlank (graph.text argument).toList))
  /-- It is a string with a brand, and no name of an identifier type. -/
  | branded {parts : List TypeId} {brand : Property}
    (unnamed : identifierArgument? (graph.text id) = none)
    (kind : graph.kind id = .intersection parts)
    (text : ∃ part ∈ parts, graph.kind part = .primitive .string)
    (first : parts.findSome? (brand? graph) = some brand) :
    TellsTable graph id (graph.stringValue? brand.type)
  /-- It is an intersection whose text starts and ends like that of an identifier type. -/
  | joined {parts : List TypeId} {written : List Char}
    (node : graph.nodes[id]? = some ⟨.intersection parts, graph.joinedTexts parts " & "⟩)
    (reads : identifierArgument? (graph.joinedTexts parts " & ") = some written) :
    TellsTable graph id (unquoted? written)
  /-- It has a text of the source that starts and ends like that of an identifier type. -/
  | source {kind : Kind} {text : String} {written : List Char}
    (node : graph.nodes[id]? = some ⟨kind, text⟩)
    (own : kind = .opaqueType ∨ kind = .numberLiteral text)
    (reads : identifierArgument? text = some written) :
    TellsTable graph id (unquoted? written)
  /-- It is a name with another number of arguments, or one that has a bracket itself. -/
  | listed {name : String} {arguments : List TypeId} {written : List Char}
    (refers : graph.RefersTo id name arguments)
    (other : arguments.length ≠ 1 ∨ '<' ∈ name.toList)
    (reads : identifierArgument? (graph.referenceText name arguments) = some written) :
    TellsTable graph id (unquoted? written)

/-- **Every identifier has one of these origins**: in a traced graph, a type that is no union is an
identifier of a table where it tells the table. -/
theorem identifierTable?_eq_some_iff {graph : Graph} (traced : graph.Traced) {id : TypeId}
    (single : graph.unionMembers? id = none) {table : Option String} :
    identifierTable? graph id = some table ↔ TellsTable graph id table := by
  rw [identifierTable?]
  constructor
  · intro found
    cases reads : identifierArgument? (graph.text id) with
    | none =>
      rw [reads] at found
      obtain ⟨parts, brand, kind, text, first, rfl⟩ := brandedTable?_eq_some_iff.mp found
      exact .branded reads kind text first
    | some written =>
      rw [reads] at found
      cases found
      cases held : graph.nodes[id]? with
      | none =>
        rw [Graph.text, held] at reads
        exact absurd reads (by decide +revert)
      | some node =>
        rw [Graph.text_of_getElem? held] at reads
        cases traced.origins id node held with
        | plain none =>
          rw [none] at reads
          cases reads
        | union members =>
          rw [Graph.unionMembers?, Graph.kind_of_getElem? held] at single
          cases single
        | intersection parts => exact .joined held reads
        | source source own => exact .source held own reads
        | @reference name arguments kind inside nominal =>
          have refers : graph.RefersTo id name arguments := ⟨inside, kind, held, nominal⟩
          dsimp only at reads
          by_cases other : arguments.length ≠ 1 ∨ '<' ∈ name.toList
          · exact .listed refers other reads
          · obtain ⟨one, unopened⟩ := not_or.mp other
            obtain ⟨argument, rfl⟩ := List.length_eq_one_iff.mp (not_not.mp one)
            have names : namesIdentifier name.toList = true := by
              by_contra foreign
              rw [Graph.referenceText_singleton, identifierArgument?_reference_none unopened
                (Bool.eq_false_iff.mpr foreign)] at reads
              cases reads
            rw [Graph.referenceText_singleton, identifierArgument?_reference names] at reads
            cases reads
            exact .named names refers
  · intro tells
    cases tells with
    | named names refers => rw [refers.identifierArgument? names]
    | branded unnamed kind text first =>
      rw [unnamed]
      exact brandedTable?_eq_some_iff.mpr ⟨_, _, kind, text, first, rfl⟩
    | joined node reads => rw [Graph.text_of_getElem? node, reads]
    | source node own reads => rw [Graph.text_of_getElem? node, reads]
    | listed refers other reads => rw [refers.text_eq, reads]

/-- A name with arguments is no union where it names identifiers. -/
theorem unionMembers?_of_refersTo {graph : Graph} {id : TypeId} {name : String}
    {arguments : List TypeId} (refers : graph.RefersTo id name arguments)
    (names : namesIdentifier name.toList = true) : graph.unionMembers? id = none := by
  obtain ⟨kind, found, nominal⟩ := refers.node
  rw [Graph.unionMembers?, Graph.kind_of_getElem? found]
  have known := nominal names
  cases kind with
  | union members => cases known
  | _ => rfl

theorem reduce_of_identifierTable? {graph : Graph} {id : TypeId}
    (single : graph.unionMembers? id = none) {table : Option String}
    (found : identifierTable? graph id = some table) : reduce graph id = .ofShape (.id table) := by
  have new : id ∉ Trail.empty.chain := List.not_mem_nil
  rw [reduce, reduceOn, reduceWithin_succ maximalNesting (by decide) new, classify_single single,
    classifySingle_identifier found]
  rfl

/-- **The tables of identifiers.** In a file that declares no type under the name of an identifier type,
a type is reduced to an identifier of a table exactly where what is left of it tells this table. A
name with a literal as its argument is reduced to an identifier of that table exactly where the literal
has no quote and no backslash. -/
theorem identifier_tables (items : List Item)
    (free : ∀ item ∈ items, ∀ name, declaredTypeName? item = some name →
      namesIdentifier name.toList = false) (names : List String) :
    let graph := graphAfter (Symbols.ofItems items) names .initial
    (∀ id table, (reduce graph id).shape = .id table ↔
      ∃ steps < maximalNesting, ∃ last, StripsTo graph steps id last ∧ TellsTable graph last table) ∧
    (∀ id name argument value, namesIdentifier name.toList = true →
      graph.RefersTo id name [argument] →
      graph.nodes[argument]? = some ⟨.stringLiteral value, literalText value⟩ →
      (reduce graph id = .ofShape (.id (some value)) ↔ isLegible value = true)) := by
  intro graph
  have traced : graph.Traced :=
    graphAfter_traced (Symbols.keepsIdentifiers_ofItems free) names Graph.traced_initial
  refine ⟨fun id table => ?_, fun id name argument value identifies refers literal => ?_⟩
  · rw [reduce_shape_eq_id_iff]
    refine exists_congr fun steps => and_congr_right fun _ => exists_congr fun last =>
      and_congr_right fun strips => ?_
    exact identifierTable?_eq_some_iff traced strips.last_single
  · have reads := refers.identifierArgument? identifies
    rw [Graph.text_of_getElem? literal] at reads
    have found : identifierTable? graph id =
        some (unquoted? (trimWhile isBlank (literalText value).toList)) := by
      rw [identifierTable?, reads]
    rw [reduce_of_identifierTable? (unionMembers?_of_refersTo refers identifies) found,
      ← unquoted?_literalText_eq_iff]
    constructor
    · intro same
      exact Shape.id.inj (congrArg Validator.shape same)
    · intro same
      rw [same]

/-- A value whose type is an identifier of a table. -/
def identifierOfLiteral : List Item :=
  [.value "a" (.reference "Id" [.stringLiteral "users"]) true]

/-- It is reduced to an identifier of this table. -/
theorem identifierOfLiteral_named :
    let graph := graphAfter (.ofItems identifierOfLiteral) ["a"] .initial
    graph.values.lookup "a" = some 2 ∧ reduce graph 2 = .ofShape (.id (some "users")) := by
  intro graph
  have free : ∀ item ∈ identifierOfLiteral, ∀ name, declaredTypeName? item = some name →
      namesIdentifier name.toList = false := by
    intro item member name declares
    rw [List.mem_singleton.mp member] at declares
    cases declares
  have written : graph.nodes[2]? = some ⟨.intersection [4, 5], graph.referenceText "Id" [1]⟩ := by
    decide +kernel
  have refers : graph.RefersTo 2 "Id" [1] := ⟨by decide +kernel, _, written, fun _ => rfl⟩
  have literal : graph.nodes[1]? = some ⟨.stringLiteral "users", literalText "users"⟩ := by
    decide +kernel
  have exactly := (identifier_tables identifierOfLiteral free ["a"]).2 2 "Id" 1 "users" (by decide)
    refers literal
  exact ⟨by decide +kernel, exactly.mpr (by decide)⟩

/-- A value whose type is an identifier with a union as its argument. -/
def identifierOfUnion : List Item :=
  [.value "a" (.reference "Id" [.union [.stringLiteral "x", .stringLiteral "y"]]) true]

/-- It is reduced to an identifier of a table that no literal of the file has as its value. -/
theorem identifierOfUnion_named :
    let graph := graphAfter (.ofItems identifierOfUnion) ["a"] .initial
    graph.values.lookup "a" = some 4 ∧ (reduce graph 4).shape = .id (some "x\" | \"y") ∧
      ∀ node ∈ graph.nodes, node.kind ≠ .stringLiteral "x\" | \"y" := by
  intro graph
  have single : graph.unionMembers? 4 = none := by decide +kernel
  have table : identifierTable? graph 4 = some (some "x\" | \"y") := by decide +kernel
  refine ⟨by decide +kernel, ?_, by decide +kernel⟩
  rw [reduce_of_identifierTable? single table]
  rfl

end SwiftBindings.Reduction
