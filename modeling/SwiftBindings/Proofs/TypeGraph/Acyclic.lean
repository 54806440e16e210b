/-
**Files without cycles.**

A name reaches another through what its declaration mentions: references, bases, defaults of type
parameters and queries. In a file in which no name reaches itself (`Symbols.Acyclic`) substitution
gives every export a structure, once the bound on declared types within each other is large enough
(`exists_expandExport`): on the way from one name to the next no name comes twice, so the way is no
longer than there are declarations.

**The main statement.** `exportedTree_eq_expandExport`: in such a file the type of an export, after any
other exports, unfolds to the structure that substitution gives it, as long as no chain of declared
types is longer than resolution follows.
-/

import Mathlib.Data.List.Perm.Subperm
import Mathlib.Logic.Relation
import SwiftBindings.Proofs.TypeGraph.Mentions
import SwiftBindings.Proofs.TypeGraph.SubstitutionRuns

set_option linter.unusedSectionVars false

namespace SwiftBindings.TypeGraph

open Declared

/-! ### Cycles -/

/-- The names that the declaration of a name mentions. -/
def Symbols.mentioned (symbols : Symbols) : Mention → List Mention
  | .type name => ((symbols.type? name).map Definition.mentions).getD []
  | .value name => ((symbols.value? name).map (mentions [])).getD []

/-- The first name reaches the second through declarations. -/
def Symbols.Reaches (symbols : Symbols) : Mention → Mention → Prop :=
  Relation.TransGen fun first second => second ∈ symbols.mentioned first

/-- No name reaches itself. -/
def Symbols.Acyclic (symbols : Symbols) : Prop :=
  ∀ name, ¬symbols.Reaches name name

/-- Where the declarations can be put in an order in which each comes behind those that it mentions, no
name reaches itself. -/
theorem Symbols.acyclic_of_rank {symbols : Symbols} (rank : Mention → Nat)
    (types : ∀ entry ∈ symbols.types, ∀ mention ∈ entry.2.mentions, rank mention < rank (.type entry.1))
    (values : ∀ entry ∈ symbols.values, ∀ mention ∈ mentions [] entry.2,
      rank mention < rank (.value entry.1)) : symbols.Acyclic := by
  have step : ∀ first second, second ∈ symbols.mentioned first → rank second < rank first := by
    rintro (name | name) second mentioned
    · cases declares : symbols.type? name with
      | none =>
        rw [Symbols.mentioned, declares] at mentioned
        cases mentioned
      | some definition =>
        rw [Symbols.mentioned, declares] at mentioned
        exact types _ (mem_of_lookup_eq_some declares) second mentioned
    · cases declares : symbols.value? name with
      | none =>
        rw [Symbols.mentioned, declares] at mentioned
        cases mentioned
      | some type =>
        rw [Symbols.mentioned, declares] at mentioned
        exact values _ (mem_of_lookup_eq_some declares) second mentioned
  intro name reaches
  have less : ∀ first second, symbols.Reaches first second → rank second < rank first := by
    intro first second reaches
    induction reaches with
    | single mentioned => exact step _ _ mentioned
    | tail _ mentioned ih => exact Nat.lt_trans (step _ _ mentioned) ih
  exact Nat.lt_irrefl _ (less name name reaches)

/-! ### What has a structure -/

/-- The expansion gives the name a structure, with any arguments. -/
def Expansion.Defines (symbols : Symbols) (deeper : Expansion) : Mention → Prop
  | .type name => (symbols.type? name).isSome →
    ∀ trees, ∃ tree, deeper.instantiate name trees = some tree
  | .value name => ∃ tree, deeper.valueType name = some tree

theorem Expansion.Defines.mono {symbols : Symbols} {first second : Expansion}
    (below : first.Below second) {name : Mention} (defines : first.Defines symbols name) : second.Defines symbols name := by
  cases name with
  | type name =>
    intro declared trees
    obtain ⟨tree, found⟩ := defines declared trees
    exact ⟨tree, below.instantiate name trees tree found⟩
  | value name =>
    obtain ⟨tree, found⟩ := defines
    exact ⟨tree, below.valueType name tree found⟩

section Defined

variable {symbols : Symbols} {deeper : Expansion}

section Types

variable {scope : TreeScope} {bound : List String}
  (known : ∀ name ∈ bound, ∃ tree, scope.lookup name = some tree)

include known

mutual

/-- **A type has a structure where all that it mentions has one.** -/
theorem exists_expand : ∀ {type : TypeExpr},
    (∀ name ∈ mentions bound type, deeper.Defines symbols name) → ∃ tree, expand symbols deeper scope type = some tree
  | .keyword _, _ => by
    rw [expand]
    exact ⟨_, rfl⟩
  | .stringLiteral _, _ => by
    rw [expand]
    exact ⟨_, rfl⟩
  | .numberLiteral _, _ => by
    rw [expand]
    exact ⟨_, rfl⟩
  | .booleanLiteral _, _ => by
    rw [expand]
    exact ⟨_, rfl⟩
  | .reference name arguments, defines => by
    rw [mentions] at defines
    rw [expand]
    split
    · exact ⟨_, rfl⟩
    · rename_i free
      obtain ⟨own, others⟩ := List.forall_mem_append.mp defines
      obtain ⟨trees, expanded⟩ := exists_expandAll others
      rw [expanded]
      show ∃ tree, (if (symbols.type? name).isSome then deeper.instantiate name trees
        else some (providedTree name trees)) = some tree
      split
      · rename_i declared
        have unbound : (arguments.isEmpty && bound.contains name) = false := by
          rw [Bool.and_eq_false_imp]
          intro empty
          rw [empty, if_pos rfl] at free
          rw [Bool.eq_false_iff]
          intro inside
          obtain ⟨tree, held⟩ := known name (List.contains_iff_mem.mp inside)
          rw [free] at held
          cases held
        rw [unbound] at own
        exact own (.type name) List.mem_cons_self declared trees
      · exact ⟨_, rfl⟩
  | .array element, defines => by
    rw [mentions] at defines
    obtain ⟨tree, expanded⟩ := exists_expand defines
    rw [expand, expanded]
    exact ⟨_, rfl⟩
  | .tuple elements, defines => by
    rw [mentions] at defines
    obtain ⟨trees, expanded⟩ := exists_expandAll defines
    rw [expand, expanded]
    exact ⟨_, rfl⟩
  | .union members, defines => by
    rw [mentions] at defines
    obtain ⟨trees, expanded⟩ := exists_expandAlternatives defines
    rw [expand, expanded]
    exact ⟨_, rfl⟩
  | .intersection members, defines => by
    rw [mentions] at defines
    obtain ⟨trees, expanded⟩ := exists_expandAll defines
    rw [expand, expanded]
    exact ⟨_, rfl⟩
  | .object members, defines => by
    rw [mentions] at defines
    obtain ⟨shape, expanded⟩ := exists_expandMembers ⟨[], none⟩ defines
    rw [expand, expanded]
    exact ⟨_, rfl⟩
  | .query name, defines => by
    rw [mentions] at defines
    obtain ⟨tree, asked⟩ := defines _ List.mem_cons_self
    rw [expand, asked]
    exact ⟨_, rfl⟩
  | .opaqueText _, _ => by
    rw [expand]
    exact ⟨_, rfl⟩

theorem exists_expandAll : ∀ {types : List TypeExpr},
    (∀ name ∈ mentionsOfAll bound types, deeper.Defines symbols name) →
      ∃ trees, expandAll symbols deeper scope types = some trees
  | [], _ => by
    rw [expandAll]
    exact ⟨_, rfl⟩
  | type :: rest, defines => by
    rw [mentionsOfAll] at defines
    obtain ⟨own, others⟩ := List.forall_mem_append.mp defines
    obtain ⟨tree, first⟩ := exists_expand own
    obtain ⟨trees, later⟩ := exists_expandAll others
    rw [expandAll, first, later]
    exact ⟨_, rfl⟩

theorem exists_expandAlternatives : ∀ {types : List TypeExpr},
    (∀ name ∈ mentionsOfAll bound types, deeper.Defines symbols name) →
      ∃ trees, expandAlternatives symbols deeper scope types = some trees
  | [], _ => by
    rw [expandAlternatives]
    exact ⟨_, rfl⟩
  | type :: rest, defines => by
    rw [mentionsOfAll] at defines
    obtain ⟨own, others⟩ := List.forall_mem_append.mp defines
    obtain ⟨tree, first⟩ := exists_expand own
    obtain ⟨trees, later⟩ := exists_expandAlternatives others
    rw [expandAlternatives, first, later]
    exact ⟨_, rfl⟩

theorem exists_expandMembers : ∀ (shape : TreeShape) {members : List Member},
    (∀ name ∈ mentionsOfMembers bound members, deeper.Defines symbols name) →
      ∃ result, expandMembers symbols deeper scope shape members = some result
  | shape, [], _ => by
    rw [expandMembers]
    exact ⟨_, rfl⟩
  | shape, .property _ _ type :: rest, defines => by
    rw [mentionsOfMembers] at defines
    obtain ⟨own, others⟩ := List.forall_mem_append.mp defines
    obtain ⟨tree, first⟩ := exists_expand own
    rw [expandMembers, first]
    exact exists_expandMembers _ others
  | shape, .index key value :: rest, defines => by
    rw [mentionsOfMembers] at defines
    obtain ⟨own, others⟩ := List.forall_mem_append.mp defines
    obtain ⟨second, others⟩ := List.forall_mem_append.mp others
    obtain ⟨keyTree, first⟩ := exists_expand own
    obtain ⟨valueTree, later⟩ := exists_expand second
    rw [expandMembers, first, later]
    exact exists_expandMembers _ others

end

theorem exists_expandBases (shape : TreeShape) {bases : List TypeExpr}
    (defines : ∀ name ∈ mentionsOfAll bound bases, deeper.Defines symbols name) :
    ∃ result, expandBases symbols deeper scope shape bases = some result := by
  induction bases generalizing shape with
  | nil => exact ⟨shape, rfl⟩
  | cons base rest ih =>
    rw [mentionsOfAll] at defines
    obtain ⟨own, others⟩ := List.forall_mem_append.mp defines
    obtain ⟨tree, first⟩ := exists_expand known own
    rw [expandBases, first]
    exact ih _ others

theorem exists_expandBody {body : Body}
    (defines : ∀ name ∈ body.mentions bound, deeper.Defines symbols name) :
    ∃ tree, expandBody symbols deeper scope body = some tree := by
  cases body with
  | typeAlias type => exact exists_expand known defines
  | interface bases members =>
    obtain ⟨heritage, own⟩ := List.forall_mem_append.mp defines
    obtain ⟨inherited, first⟩ := exists_expandBases known ⟨[], none⟩ heritage
    obtain ⟨shape, later⟩ := exists_expandMembers known ⟨[], none⟩ own
    rw [expandBody, first, later]
    exact ⟨_, rfl⟩

end Types

/-- A parameter that is bound stands for something, and so does each that was before. -/
theorem known_cons {scope : TreeScope} {bound : List String}
    (known : ∀ name ∈ bound, ∃ tree, scope.lookup name = some tree) (name : String) (tree : Tree) :
    ∀ other ∈ name :: bound, ∃ held, ((name, tree) :: scope).lookup other = some held := by
  intro other member
  rw [List.lookup_cons]
  split
  · exact ⟨tree, rfl⟩
  · rename_i different
    refine known other ((List.mem_cons.mp member).resolve_left ?_)
    rintro rfl
    rw [beq_self_eq_true] at different
    cases different

theorem exists_expandParameters {parameters : List Parameter} {scope : TreeScope} {bound : List String}
    (known : ∀ name ∈ bound, ∃ tree, scope.lookup name = some tree)
    (defines : ∀ name ∈ mentionsOfParameters bound parameters, deeper.Defines symbols name)
    (arguments : List Tree) :
    ∃ result, expandParameters symbols deeper scope parameters arguments = some result ∧
      ∀ name, name ∈ bound ∨ name ∈ parameters.map Parameter.name →
        ∃ tree, result.lookup name = some tree := by
  induction parameters generalizing scope bound arguments with
  | nil => exact ⟨scope, by rw [expandParameters], fun name member =>
      known name (member.resolve_right List.not_mem_nil)⟩
  | cons parameter rest ih =>
    rw [mentionsOfParameters] at defines
    obtain ⟨own, others⟩ := List.forall_mem_append.mp defines
    have moved : ∀ name, name ∈ bound ∨ name ∈ (parameter :: rest).map Parameter.name →
        name ∈ parameter.name :: bound ∨ name ∈ rest.map Parameter.name := by
      intro name member
      rw [List.map_cons, List.mem_cons] at member
      rw [List.mem_cons]
      rcases member with before | same | later
      · exact .inl (.inr before)
      · exact .inl (.inl same)
      · exact .inr later
    have bind : ∀ argument arguments, ∃ result,
        expandParameters symbols deeper ((parameter.name, argument) :: scope) rest arguments =
          some result ∧ ∀ name, name ∈ bound ∨ name ∈ (parameter :: rest).map Parameter.name →
            ∃ tree, result.lookup name = some tree := by
      intro argument arguments
      obtain ⟨result, expanded, held⟩ := ih (known_cons known parameter.name argument) others arguments
      exact ⟨result, expanded, fun name member => held name (moved name member)⟩
    cases arguments with
    | cons argument arguments => exact bind argument arguments
    | nil =>
      rw [expandParameters]
      cases given : parameter.fallback with
      | none => exact bind (.primitive .unknown) []
      | some fallback =>
        rw [given] at own
        obtain ⟨argument, expanded⟩ := exists_expand known own
        dsimp only
        rw [expanded]
        exact bind argument []

theorem Expansion.Defines.instantiate {name : String} {definition : Definition}
    (declares : symbols.type? name = some definition)
    (defines : ∀ mention ∈ definition.mentions, deeper.Defines symbols mention) (trees : List Tree) :
    ∃ tree, expandInstance symbols deeper name trees = some tree := by
  obtain ⟨parameters, body⟩ := List.forall_mem_append.mp defines
  have none : ∀ name ∈ ([] : List String), ∃ tree, ([] : TreeScope).lookup name = some tree :=
    fun _ member => absurd member List.not_mem_nil
  obtain ⟨scope, bound, known⟩ := exists_expandParameters none parameters trees
  rw [expandInstance, declares]
  dsimp only
  rw [bound]
  exact exists_expandBody (fun name member => known name (.inr member)) body

end Defined

/-! ### Ways through a file -/

section Ways

variable {symbols : Symbols}

/-- The declared names of a file. -/
def Symbols.declaredNames (symbols : Symbols) : List Mention :=
  symbols.types.map (fun entry => .type entry.1) ++ symbols.values.map fun entry => .value entry.1

/-- The name is that of a value. -/
def Mention.isValue : Mention → Bool
  | .type _ => false
  | .value _ => true

/-- The declared names on a way to a name: each of them reaches it, and none comes twice. -/
structure Symbols.Way (symbols : Symbols) (passed : List Mention) (name : Mention) : Prop where
  nodup : passed.Nodup
  declared : ∀ other ∈ passed, other ∈ symbols.declaredNames
  reaches : ∀ other ∈ passed, symbols.Reaches other name

/-- The way goes on to what a declared name mentions. -/
theorem Symbols.Way.step (acyclic : symbols.Acyclic) {passed : List Mention} {name next : Mention}
    (way : symbols.Way passed name) (declared : name ∈ symbols.declaredNames)
    (mentioned : next ∈ symbols.mentioned name) : symbols.Way (name :: passed) next where
  nodup := List.nodup_cons.mpr ⟨fun inside => acyclic name (way.reaches name inside), way.nodup⟩
  declared := List.forall_mem_cons.mpr ⟨declared, way.declared⟩
  reaches := List.forall_mem_cons.mpr
    ⟨.single mentioned, fun other inside => (way.reaches other inside).tail mentioned⟩

/-- There are no more values on a way than are declared. -/
theorem Symbols.Way.values_le {passed : List Mention} {name : Mention} (way : symbols.Way passed name) :
    (passed.filter Mention.isValue).length ≤ symbols.values.length := by
  have inside : passed.filter Mention.isValue ⊆ symbols.values.map fun entry => .value entry.1 := by
    intro other member
    obtain ⟨member, value⟩ := List.mem_filter.mp member
    rcases List.mem_append.mp (way.declared other member) with type | held
    · obtain ⟨entry, _, rfl⟩ := List.mem_map.mp type
      cases value
    · exact held
  have bound := (List.subperm_of_subset (way.nodup.filter _) inside).length_le
  rwa [List.length_map] at bound

/-- Names that each have a structure within some chain have one within a common chain. -/
theorem exists_common_chain {values : Nat} {names : List Mention}
    (each : ∀ name ∈ names, ∃ chain, (Expansion.within symbols values chain).Defines symbols name) :
    ∃ chain, ∀ name ∈ names, (Expansion.within symbols values chain).Defines symbols name := by
  induction names with
  | nil => exact ⟨0, fun _ member => absurd member List.not_mem_nil⟩
  | cons name rest ih =>
    obtain ⟨head, tail⟩ := List.forall_mem_cons.mp each
    obtain ⟨first, own⟩ := head
    obtain ⟨second, others⟩ := ih tail
    refine ⟨max first second, List.forall_mem_cons.mpr ⟨?_, fun other member => ?_⟩⟩
    · exact own.mono (Expansion.within_mono symbols (Nat.le_refl _) (Nat.le_max_left _ _))
    · exact (others other member).mono
        (Expansion.within_mono symbols (Nat.le_refl _) (Nat.le_max_right _ _))

/-- A way to a declared name has not passed all of them. -/
theorem Symbols.Way.length_lt (acyclic : symbols.Acyclic) {passed : List Mention} {name : Mention}
    (way : symbols.Way passed name) (declared : name ∈ symbols.declaredNames) :
    passed.length < symbols.declaredNames.length := by
  have once : (name :: passed).Nodup :=
    List.nodup_cons.mpr ⟨fun inside => acyclic name (way.reaches name inside), way.nodup⟩
  exact (List.subperm_of_subset once (List.forall_mem_cons.mpr ⟨declared, way.declared⟩)).length_le

/-- **In a file without cycles every name has a structure**, on whatever way it is met, if the number
of values that may still be entered covers those that are not on the way. The induction is on the
number of declared names that are not on it. -/
theorem exists_chain (acyclic : symbols.Acyclic) {passed : List Mention} {name : Mention}
    (way : symbols.Way passed name) {values : Nat}
    (enough : symbols.values.length < (passed.filter Mention.isValue).length + values) :
    ∃ chain, (Expansion.within symbols values chain).Defines symbols name := by
  cases name with
  | type spelled =>
    cases declares : symbols.type? spelled with
    | none => exact ⟨0, fun declared => by rw [declares] at declared; cases declared⟩
    | some definition =>
      have declared : .type spelled ∈ symbols.declaredNames :=
        List.mem_append_left _ (List.mem_map.mpr ⟨_, mem_of_lookup_eq_some declares, rfl⟩)
      have fewer := way.length_lt acyclic declared
      have mentioned : symbols.mentioned (.type spelled) = definition.mentions := by
        rw [Symbols.mentioned, declares]
        rfl
      have each : ∀ next ∈ definition.mentions,
          ∃ chain, (Expansion.within symbols values chain).Defines symbols next := fun next member =>
        exists_chain acyclic (way.step acyclic declared (mentioned ▸ member)) enough
      obtain ⟨chain, defines⟩ := exists_common_chain each
      refine ⟨chain + 1, fun _ trees => ?_⟩
      rw [Expansion.instantiate_within_succ]
      exact Expansion.Defines.instantiate declares defines trees
  | value spelled =>
    obtain ⟨values, rfl⟩ : ∃ fewer, values = fewer + 1 := by
      have := way.values_le
      exact ⟨values - 1, by omega⟩
    cases declares : symbols.value? spelled with
    | none => exact ⟨0, .unresolved, by rw [Expansion.valueType_within_succ, expandValue, declares]⟩
    | some type =>
      have declared : .value spelled ∈ symbols.declaredNames :=
        List.mem_append_right _ (List.mem_map.mpr ⟨_, mem_of_lookup_eq_some declares, rfl⟩)
      have fewer := way.length_lt acyclic declared
      have mentioned : symbols.mentioned (.value spelled) = mentions [] type := by
        rw [Symbols.mentioned, declares]
        rfl
      have less : symbols.values.length <
          ((.value spelled :: passed).filter Mention.isValue).length + values := by
        rw [List.filter_cons_of_pos rfl, List.length_cons]
        omega
      have each : ∀ next ∈ mentions [] type,
          ∃ chain, (Expansion.within symbols values chain).Defines symbols next := fun next member =>
        exists_chain acyclic (way.step acyclic declared (mentioned ▸ member)) less
      obtain ⟨chain, defines⟩ := exists_common_chain each
      refine ⟨chain, ?_⟩
      rw [Expansion.Defines, Expansion.valueType_within_succ, expandValue, declares]
      exact exists_expand (fun _ member => absurd member List.not_mem_nil) defines
termination_by symbols.declaredNames.length - passed.length
decreasing_by all_goals (rw [List.length_cons]; omega)

/-- **In a file without cycles substitution gives every export a structure**, if chains of declared
types may be long enough. -/
theorem exists_expandExport (acyclic : symbols.Acyclic) {name : String}
    (exported : (symbols.exportedValue? name).isSome) :
    ∃ tree enough, ∀ chain ≥ enough, expandExport symbols chain name = some tree := by
  obtain ⟨localName, exported⟩ := Option.isSome_iff_exists.mp exported
  have start : symbols.Way [] (.value localName) :=
    ⟨List.nodup_nil, fun _ member => absurd member List.not_mem_nil,
      fun _ member => absurd member List.not_mem_nil⟩
  have all : symbols.values.length <
      (([] : List Mention).filter Mention.isValue).length + (symbols.values.length + 1) := by
    rw [List.filter_nil, List.length_nil]
    omega
  obtain ⟨enough, tree, found⟩ := exists_chain acyclic start all
  refine ⟨tree, enough, fun chain longer => expandExport_mono longer ?_⟩
  rw [expandExport, exported]
  exact found

end Ways

/-! ### The type of an export -/

/-- In the type of the export, if it is one, no more than so many declared types are within each
other. -/
def Symbols.ChainsWithin (symbols : Symbols) (limit : Nat) (name : String) : Prop :=
  (symbols.exportedValue? name).isSome → (expandExport symbols limit name).isSome

/-- **Resolution into a graph that remembers computes substitution.** In a file without cycles
substitution gives every export a structure, the same for every bound that is large enough. After any
other exports the type that resolution answers unfolds to this structure, as long as the chains of
declared types are no longer than resolution follows, in this export and in those before it. -/
theorem exportedTree_eq_expandExport {symbols : Symbols} (acyclic : symbols.Acyclic)
    (earlier : List String) {name : String} (exported : (symbols.exportedValue? name).isSome) :
    ∃ tree, (∃ enough, ∀ chain ≥ enough, expandExport symbols chain name = some tree) ∧
      ((∀ other ∈ earlier ++ [name], symbols.ChainsWithin maximalDepth other) →
        ∃ enough, ∀ depth ≥ enough, exportedTree symbols earlier name depth = some tree) := by
  obtain ⟨tree, enough, expanded⟩ := exists_expandExport acyclic exported
  refine ⟨tree, ⟨enough, expanded⟩, fun short => ?_⟩
  obtain ⟨before, last⟩ := List.forall_mem_append.mp short
  obtain ⟨other, found⟩ := Option.isSome_iff_exists.mp (last name List.mem_cons_self exported)
  have same : other = tree := by
    have longer := expandExport_mono (Nat.le_max_left maximalDepth enough) found
    rw [expanded _ (Nat.le_max_right _ _)] at longer
    exact (Option.some.inj longer).symm
  rw [same] at found
  obtain ⟨localName, exported⟩ := Option.isSome_iff_exists.mp exported
  obtain ⟨grows, faithful⟩ := graphAfter_faithful (.refl _) (Graph.faithful_initial symbols) before
  have yields := yields_exportType? grows faithful exported found
  obtain ⟨deep, unfolds⟩ := yields.shows.unfold
  refine ⟨deep, fun depth deeper => ?_⟩
  rw [exportedTree, exportType?_of_some exported]
  exact congrArg some (unfolds depth deeper)

/-- A generic type with a default, and values that use it. -/
def pairedValues : Symbols := .ofItems
  [.typeAlias "Pair" [⟨"A", none⟩, ⟨"B", some (.array (.reference "A" []))⟩]
      (.object [.property "first" false (.reference "A" []),
        .property "second" true (.reference "B" [])]) false,
    .value "p" (.reference "Pair" [.keyword .string]) true,
    .value "q" (.reference "Partial" [.intersection [.reference "Pair" [.keyword .number],
      .object [.property "other" false (.query "p.second")]]]) true]

/-- Both exports have the structures that substitution gives them, the second also after the first. -/
theorem pairedValues_by_substitution :
    ∃ tree, (∃ enough, ∀ chain ≥ enough, expandExport pairedValues chain "q" = some tree) ∧
      ∃ enough, ∀ depth ≥ enough, exportedTree pairedValues ["p"] "q" depth = some tree := by
  have acyclic : pairedValues.Acyclic := by
    refine Symbols.acyclic_of_rank (fun mention => match mention with
      | .value "q" => 3
      | .value "p" => 2
      | .type "Pair" => 1
      | .type "Id" => 1
      | _ => 0) (by decide) (by decide)
  obtain ⟨tree, expanded, unfolds⟩ :=
    exportedTree_eq_expandExport acyclic ["p"] (show (pairedValues.exportedValue? "q").isSome by decide)
  refine ⟨tree, expanded, unfolds ?_⟩
  intro other member
  rcases List.mem_pair.mp member with rfl | rfl <;> exact fun _ => by decide

end SwiftBindings.TypeGraph
