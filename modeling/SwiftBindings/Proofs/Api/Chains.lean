/-
**What discovery finds below a root.**

A function is found at the end of a chain of properties: each property is one of the type of the
property before, the last one is of a type that refers to a function, and those before it are
namespaces that do not (`IsFunctionChain`). The walk below a root goes over these chains in the order
of the properties (`functionsWithin_eq`): a namespace is left out only around itself, so two chains may
well go through the same one.

**The main statement.** `discovery_finds_chains`: the functions below a root are one for each chain
that is no longer than the walk is deep and enters no namespace twice; discovery answers the functions
of all roots in order; and it answers exactly where every root is an exported value with such a chain
or without any properties.
-/

import Mathlib.Data.List.Nodup
import SwiftBindings.Api.Function
import SwiftBindings.Proofs.TypeGraph.Clear

set_option linter.unusedSectionVars false

namespace SwiftBindings.Api

open TypeGraph

/-! ### Chains of properties -/

/-- A property with its position among the properties of its type. -/
abbrev Step := Property × Nat

/-- Each step is a property of the type that the step before leads to, the first one of the given
type. -/
def Leads (graph : Graph) : TypeId → List Step → Prop
  | _, [] => True
  | id, step :: rest =>
    (graph.properties id)[step.2]? = some step.1 ∧ Leads graph step.1.type rest

/-- The types that a chain goes through before the last one, from the given type on. -/
def passed (id : TypeId) (chain : List Step) : List TypeId :=
  id :: chain.dropLast.map fun step => step.1.type

/-- A chain of properties from a type to a reference of a function. -/
structure IsFunctionChain (graph : Graph) (id : TypeId) (chain : List Step) : Prop where
  leads : Leads graph id chain
  /-- The last type has the members of a reference. -/
  ends : ∃ step ∈ chain.getLast?, isFunctionReference graph step.1.type = true
  /-- The types between are namespaces. -/
  between : ∀ step ∈ chain.dropLast, graph.isStructured step.1.type = true ∧
    isFunctionReference graph step.1.type = false
  /-- No type before the last one comes twice. -/
  distinct : (passed id chain).Nodup

/-- The names along a chain. -/
def chainNames (chain : List Step) : List String :=
  chain.map fun step => step.1.name

/-- The positions along a chain. -/
def positions (chain : List Step) : List Nat :=
  chain.map Prod.snd

/-- A function is that of a chain below a root: its path is put together from the names along the
chain, and the rest from the members of the type at the end. -/
def RecordsChain (graph : Graph) (root : String) (chain : List Step) (function : Function) : Prop :=
  ∃ step ∈ chain.getLast?, ∃ kind visibility arguments result,
    graph.property? step.1.type "_type" = some kind ∧
    graph.property? step.1.type "_visibility" = some visibility ∧
    graph.property? step.1.type "_args" = some arguments ∧
    graph.property? step.1.type "_returnType" = some result ∧
    function = {
      root
      path := ".".intercalate (chainNames chain)
      kind := .ofText (literalText graph kind.type)
      visibility := .ofText (literalText graph visibility.type)
      arguments := arguments.type
      result := result.type }

/-- The functions are those of the chains of bounded length below a root, one for each chain, by
increasing positions. -/
def RecordsChains (graph : Graph) (root : String) (id : TypeId) (functions : List Function) : Prop :=
  ∃ chains : List (List Step),
    chains.Pairwise (fun first second => positions first < positions second) ∧
    (∀ chain, chain ∈ chains ↔
      IsFunctionChain graph id chain ∧ chain.length ≤ namespaceDepth + 1) ∧
    List.Forall₂ (RecordsChain graph root) chains functions

section Chain

variable {graph : Graph} {id : TypeId} {step : Step} {chain : List Step}

theorem getLast?_cons_of_ne_nil (step : Step) (some : chain ≠ []) :
    (step :: chain).getLast? = chain.getLast? := by
  obtain ⟨next, rest, rfl⟩ := List.exists_cons_of_ne_nil some
  rw [List.getLast?_cons_cons]

theorem dropLast_cons_of_ne_nil (step : Step) (some : chain ≠ []) :
    (step :: chain).dropLast = step :: chain.dropLast := by
  obtain ⟨next, rest, rfl⟩ := List.exists_cons_of_ne_nil some
  rw [List.dropLast_cons_cons]

theorem passed_cons (id : TypeId) (step : Step) (some : chain ≠ []) :
    passed id (step :: chain) = id :: passed step.1.type chain := by
  rw [passed, dropLast_cons_of_ne_nil step some, List.map_cons, passed]

theorem IsFunctionChain.ne_nil (is : IsFunctionChain graph id chain) : chain ≠ [] := by
  rintro rfl
  obtain ⟨_, none, _⟩ := is.ends
  cases none

/-- A chain of one property. -/
theorem isFunctionChain_single : IsFunctionChain graph id [step] ↔
    (graph.properties id)[step.2]? = some step.1 ∧
      isFunctionReference graph step.1.type = true := by
  constructor
  · intro is
    obtain ⟨last, same, refers⟩ := is.ends
    cases same
    exact ⟨is.leads.1, refers⟩
  · rintro ⟨found, refers⟩
    exact {
      leads := ⟨found, trivial⟩
      ends := ⟨step, rfl, refers⟩
      between := fun _ member => absurd member List.not_mem_nil
      distinct := List.nodup_singleton id }

/-- A chain of more properties: the first is a namespace, and the others are a chain from there that
does not come back. -/
theorem isFunctionChain_cons (some : chain ≠ []) : IsFunctionChain graph id (step :: chain) ↔
    (graph.properties id)[step.2]? = .some step.1 ∧ graph.isStructured step.1.type = true ∧
      isFunctionReference graph step.1.type = false ∧
        IsFunctionChain graph step.1.type chain ∧ id ∉ passed step.1.type chain := by
  constructor
  · intro is
    obtain ⟨found, leads⟩ := is.leads
    have between := is.between
    rw [dropLast_cons_of_ne_nil step some, List.forall_mem_cons] at between
    have distinct := is.distinct
    rw [passed_cons id step some, List.nodup_cons] at distinct
    refine ⟨found, between.1.1, between.1.2, ⟨leads, ?_, between.2, distinct.2⟩, distinct.1⟩
    rw [← getLast?_cons_of_ne_nil step some]
    exact is.ends
  · rintro ⟨found, structured, other, is, outside⟩
    refine ⟨⟨found, is.leads⟩, ?_, ?_, ?_⟩
    · rw [getLast?_cons_of_ne_nil step some]
      exact is.ends
    · rw [dropLast_cons_of_ne_nil step some]
      exact List.forall_mem_cons.mpr ⟨⟨structured, other⟩, is.between⟩
    · rw [passed_cons id step some]
      exact List.nodup_cons.mpr ⟨outside, is.distinct⟩

end Chain

/-! ### The chains of a walk -/

/-- The chains that a walk goes over, through at most the given number of levels; `visiting` holds the
namespaces around it. -/
def chainsWithin (graph : Graph) : Nat → List TypeId → TypeId → List (List Step)
  | 0, _, _ => []
  | levels + 1, visiting, id =>
    if id ∈ visiting then []
    else (graph.properties id).zipIdx.flatMap fun step =>
      (if isFunctionReference graph step.1.type then [[]]
        else if graph.isStructured step.1.type then
          chainsWithin graph levels (id :: visiting) step.1.type
        else []).map (step :: ·)

/-- The function at the end of a chain that goes on from a path. -/
def chainFunction? (graph : Graph) (root : String) (path : List String) (chain : List Step) :
    Option Function :=
  chain.getLast?.bind fun step => functionAt? graph root (path ++ chainNames chain) step.1.type

section Walk

variable (graph : Graph) (root : String)

theorem ne_nil_of_mem_chainsWithin {levels : Nat} {visiting : List TypeId} {id : TypeId}
    {chain : List Step} (member : chain ∈ chainsWithin graph levels visiting id) : chain ≠ [] := by
  cases levels with
  | zero => cases member
  | succ levels =>
    rw [chainsWithin] at member
    split at member
    · cases member
    · obtain ⟨step, _, inside⟩ := List.mem_flatMap.mp member
      obtain ⟨rest, _, rfl⟩ := List.mem_map.mp inside
      exact List.cons_ne_nil _ _

/-- Two chains that go on from the same step lead to the same functions. -/
theorem chainFunction?_cons (path : List String) (step : Step) {chain : List Step}
    (some : chain ≠ []) : chainFunction? graph root path (step :: chain) =
      chainFunction? graph root (path ++ [step.1.name]) chain := by
  rw [chainFunction?, chainFunction?, getLast?_cons_of_ne_nil step some, List.append_assoc]
  rfl

/-- **The walk answers the functions at the ends of its chains.** -/
theorem functionsWithin_eq (levels : Nat) (visiting : List TypeId) (path : List String)
    (id : TypeId) : functionsWithin graph root levels visiting path id =
      (chainsWithin graph levels visiting id).filterMap (chainFunction? graph root path) := by
  induction levels generalizing visiting path id with
  | zero => rfl
  | succ levels ih =>
    rw [functionsWithin, chainsWithin]
    split
    · rfl
    · have indexed : ∀ answers : Property → List Function,
          (graph.properties id).flatMap answers =
            (graph.properties id).zipIdx.flatMap fun step => answers step.1 := by
        intro answers
        conv_lhs => rw [← List.zipIdx_map_fst 0 (graph.properties id)]
        rw [List.flatMap_map]
      rw [indexed, List.filterMap_flatMap]
      refine List.flatMap_congr fun step _ => ?_
      rw [List.filterMap_map]
      dsimp only
      split
      · have single : chainFunction? graph root path [step] =
            functionAt? graph root (path ++ [step.1.name]) step.1.type := rfl
        rw [List.filterMap_cons, Function.comp_apply, single]
        cases functionAt? graph root (path ++ [step.1.name]) step.1.type with
        | none => rfl
        | some function => rfl
      · split
        · rename_i entered
          rw [(Bool.and_eq_true_iff.mp entered).1, if_pos rfl, ih]
          refine List.filterMap_congr fun chain member => ?_
          exact (chainFunction?_cons graph root path step
            (ne_nil_of_mem_chainsWithin graph member)).symm
        · rename_i skipped
          split
          · rename_i structured
            -- A namespace without properties has no chains either.
            have empty : graph.properties step.1.type = [] := by
              simpa [structured] using skipped
            cases levels with
            | zero => rfl
            | succ levels =>
              rw [chainsWithin, empty]
              split
              · rfl
              · rfl
          · rfl

/-- **The chains of a walk** are those that stay clear of the namespaces around it and are no longer
than the walk is deep. -/
theorem mem_chainsWithin {levels : Nat} {visiting : List TypeId} {id : TypeId} {chain : List Step} :
    chain ∈ chainsWithin graph levels visiting id ↔ IsFunctionChain graph id chain ∧
      (passed id chain).Disjoint visiting ∧ chain.length ≤ levels := by
  induction levels generalizing visiting id chain with
  | zero =>
    constructor
    · intro member
      cases member
    · rintro ⟨is, _, short⟩
      exact absurd (List.length_eq_zero_iff.mp (Nat.le_zero.mp short)) is.ne_nil
  | succ levels ih =>
    rw [chainsWithin]
    by_cases entered : id ∈ visiting
    · rw [if_pos entered]
      constructor
      · intro member
        cases member
      · rintro ⟨_, clear, _⟩
        exact absurd entered (clear List.mem_cons_self)
    · rw [if_neg entered, List.mem_flatMap]
      constructor
      · rintro ⟨step, among, inside⟩
        obtain ⟨rest, member, rfl⟩ := List.mem_map.mp inside
        have found := List.mem_zipIdx_iff_getElem?.mp among
        split at member
        · rename_i refers
          cases List.mem_singleton.mp member
          exact ⟨isFunctionChain_single.mpr ⟨found, refers⟩,
            List.singleton_disjoint.mpr entered, Nat.le_add_left _ _⟩
        · rename_i other
          split at member
          · rename_i structured
            obtain ⟨is, clear, short⟩ := ih.mp member
            obtain ⟨outside, clear⟩ := List.disjoint_cons_right.mp clear
            refine ⟨(isFunctionChain_cons is.ne_nil).mpr ⟨found, structured,
              Bool.not_eq_true _ ▸ other, is, outside⟩, ?_, Nat.succ_le_succ short⟩
            rw [passed_cons id step is.ne_nil]
            exact List.disjoint_cons_left.mpr ⟨entered, clear⟩
          · cases member
      · rintro ⟨is, clear, short⟩
        obtain ⟨step, rest, rfl⟩ := List.exists_cons_of_ne_nil is.ne_nil
        refine ⟨step, List.mem_zipIdx_iff_getElem?.mpr is.leads.1, List.mem_map.mpr ⟨rest, ?_, rfl⟩⟩
        by_cases last : rest = []
        · subst last
          rw [(isFunctionChain_single.mp is).2, if_pos rfl]
          exact List.mem_singleton_self _
        · obtain ⟨_, structured, other, is, outside⟩ := (isFunctionChain_cons last).mp is
          rw [other, structured, if_neg Bool.false_ne_true, if_pos rfl]
          rw [passed_cons id step last, List.disjoint_cons_left] at clear
          exact ih.mpr ⟨is, List.disjoint_cons_right.mpr ⟨outside, clear.2⟩,
            Nat.le_of_succ_le_succ short⟩

/-- The positions along the chains of a walk increase. -/
theorem chainsWithin_increasing (levels : Nat) (visiting : List TypeId) (id : TypeId) :
    (chainsWithin graph levels visiting id).Pairwise fun first second =>
      positions first < positions second := by
  induction levels generalizing visiting id with
  | zero => exact List.Pairwise.nil
  | succ levels ih =>
    rw [chainsWithin]
    split
    · exact List.Pairwise.nil
    · refine List.pairwise_flatMap.mpr ⟨fun step _ => ?_, ?_⟩
      · refine List.pairwise_map.mpr ?_
        have tails : ((if isFunctionReference graph step.1.type then [[]]
            else if graph.isStructured step.1.type then
              chainsWithin graph levels (id :: visiting) step.1.type
            else []) : List (List Step)).Pairwise fun first second =>
              positions first < positions second := by
          split
          · exact List.pairwise_singleton _ _
          · split
            · exact ih _ _
            · exact List.Pairwise.nil
        exact tails.imp fun less => List.cons_lt_cons_self.mpr less
      · have ordered : (graph.properties id).zipIdx.Pairwise fun first second =>
            first.2 < second.2 := by
          refine List.pairwise_map.mp ?_
          rw [List.zipIdx_map_snd]
          exact List.pairwise_lt_range'
        refine ordered.imp fun less first inFirst second inSecond => ?_
        obtain ⟨_, _, rfl⟩ := List.mem_map.mp inFirst
        obtain ⟨_, _, rfl⟩ := List.mem_map.mp inSecond
        exact List.Lex.rel less

end Walk

/-! ### Functions of chains -/

section Functions

variable (graph : Graph) (root : String)

/-- The members of a reference to a function are properties. -/
theorem exists_property_of_isFunctionReference {id : TypeId}
    (refers : isFunctionReference graph id = true) :
    ∀ name ∈ sentinels, ∃ property, graph.property? id name = some property :=
  fun name member => Option.isSome_iff_exists.mp (List.all_eq_true.mp refers name member)

/-- At the end of every chain there is a function. -/
theorem exists_chainFunction {id : TypeId} {chain : List Step} (is : IsFunctionChain graph id chain) :
    ∃ function, chainFunction? graph root [] chain = some function ∧
      RecordsChain graph root chain function := by
  obtain ⟨step, last, refers⟩ := is.ends
  have has := exists_property_of_isFunctionReference graph refers
  obtain ⟨kind, hasKind⟩ := has "_type" (by decide)
  obtain ⟨visibility, hasVisibility⟩ := has "_visibility" (by decide)
  obtain ⟨arguments, hasArguments⟩ := has "_args" (by decide)
  obtain ⟨result, hasResult⟩ := has "_returnType" (by decide)
  refine ⟨_, ?_, step, last, kind, visibility, arguments, result, hasKind, hasVisibility, hasArguments,
    hasResult, rfl⟩
  rw [chainFunction?, Option.mem_def.mp last, Option.bind_some, functionAt?]
  dsimp only
  rw [hasKind, hasVisibility, hasArguments, hasResult]
  rfl

/-- Where every item of a list has a value, the values are those of the items in turn. -/
theorem forall₂_filterMap {α β : Type} {value? : α → Option β} {related : α → β → Prop}
    {items : List α} (has : ∀ item ∈ items, ∃ value, value? item = some value ∧ related item value) :
    List.Forall₂ related items (items.filterMap value?) := by
  induction items with
  | nil => exact .nil
  | cons item rest ih =>
    obtain ⟨⟨value, found, holds⟩, others⟩ := List.forall_mem_cons.mp has
    rw [List.filterMap_cons, found]
    exact .cons holds (ih others)

/-- The functions below a root are those of the chains below it. -/
theorem functionsBelow_recordsChains (id : TypeId) :
    RecordsChains graph root id (functionsBelow graph root id) := by
  refine ⟨_, chainsWithin_increasing graph (namespaceDepth + 1) [] id, fun chain => ?_, ?_⟩
  · rw [mem_chainsWithin]
    exact and_congr_right fun _ => and_iff_right (List.disjoint_nil_right _)
  · rw [functionsBelow, functionsWithin_eq]
    exact forall₂_filterMap fun chain member =>
      exists_chainFunction graph root (mem_chainsWithin graph |>.mp member).1

variable {graph root}

theorem RecordsChains.eq_nil_iff {id : TypeId} {functions : List Function}
    (records : RecordsChains graph root id functions) :
    functions = [] ↔ ¬∃ chain, IsFunctionChain graph id chain ∧ chain.length ≤ namespaceDepth + 1 := by
  obtain ⟨chains, _, those, records⟩ := records
  have lengths := records.length_eq
  constructor
  · rintro rfl ⟨chain, is⟩
    rw [List.length_nil, List.length_eq_zero_iff] at lengths
    subst lengths
    cases (those chain).mpr is
  · intro without
    have none : chains = [] :=
      List.eq_nil_iff_forall_not_mem.mpr fun chain member => without ⟨chain, (those chain).mp member⟩
    subst none
    cases records
    rfl

end Functions

/-! ### Discovery -/

/-- What a step of two has answered. -/
theorem bind_eq_ok {α β : Type} {step : Except Failure α} {rest : α → Except Failure β} {result : β}
    (found : step >>= rest = .ok result) : ∃ value, step = .ok value ∧ rest value = .ok result := by
  cases step with
  | error failure => cases found
  | ok value => exact ⟨value, rfl, found⟩

/-- A root whose type has functions below it, or is a namespace without any properties. -/
def HasFunctions (graph : Graph) (id : TypeId) : Prop :=
  (∃ chain, IsFunctionChain graph id chain ∧ chain.length ≤ namespaceDepth + 1) ∨
    graph.isStructured id = true ∧ graph.properties id = []

/-- The functions below roots, and the graph after their exports: each root is an exported value, and
its functions are those of the chains below it. -/
inductive Discovers (symbols : Symbols) : Graph → List String → List Function → Graph → Prop where
  /-- Without roots there are no functions. -/
  | nil {graph : Graph} : Discovers symbols graph [] [] graph
  /-- The functions below a root come before those of the others. -/
  | cons {graph resolved final : Graph} {root : String} {rest : List String} {id : TypeId}
    {own others : List Function} (exported : exportType? symbols root graph = (some id, resolved))
    (has : HasFunctions resolved id) (records : RecordsChains resolved root id own)
    (further : Discovers symbols resolved rest others final) :
    Discovers symbols graph (root :: rest) (own ++ others) final

section Discovery

variable {symbols : Symbols} {graph : Graph} {root : String}

theorem checkEmptyRoot_eq_ok {id : TypeId} : checkEmptyRoot graph root id = .ok () ↔
    graph.isStructured id = true ∧ graph.properties id = [] := by
  rw [checkEmptyRoot]
  split
  · rename_i empty
    obtain ⟨structured, none⟩ := Bool.and_eq_true_iff.mp empty
    exact iff_of_true rfl ⟨structured, List.isEmpty_iff.mp none⟩
  · rename_i full
    refine iff_of_false (fun same => by cases same) fun empty => full ?_
    rw [empty.1, empty.2]
    rfl

/-- The functions below a root are answered where it is an exported value that has some, or that is a
namespace without properties. -/
theorem functionsOfRoot_eq_ok {functions : List Function} {resolved : Graph} :
    functionsOfRoot symbols graph root = .ok (functions, resolved) ↔
      ∃ id, exportType? symbols root graph = (some id, resolved) ∧
        functions = functionsBelow resolved root id ∧ HasFunctions resolved id := by
  rw [functionsOfRoot]
  rcases exported : exportType? symbols root graph with ⟨_ | id, after⟩
  · refine iff_of_false (fun same => by cases same) ?_
    rintro ⟨_, same, _⟩
    cases same
  · dsimp only
    have found := (functionsBelow_recordsChains after root id).eq_nil_iff
    by_cases none : functionsBelow after root id = []
    · have without := found.mp none
      rw [none, List.isEmpty_nil, if_pos rfl]
      constructor
      · intro answered
        obtain ⟨_, empty, same⟩ := bind_eq_ok answered
        cases same
        exact ⟨id, rfl, none.symm, .inr (checkEmptyRoot_eq_ok.mp empty)⟩
      · rintro ⟨_, same, rfl, has⟩
        cases same
        have empty : checkEmptyRoot _ root _ = .ok () :=
          checkEmptyRoot_eq_ok.mpr (has.resolve_left without)
        rw [empty, none]
        rfl
    · have chain := not_not.mp fun without => none (found.mpr without)
      rw [List.isEmpty_eq_false_iff.mpr none, if_neg Bool.false_ne_true]
      constructor
      · intro answered
        cases answered
        exact ⟨id, rfl, rfl, .inl chain⟩
      · rintro ⟨_, same, rfl, _⟩
        cases same
        rfl

theorem functionsOfRoots_cons_eq_ok {rest : List String} {functions : List Function} {final : Graph} :
    functionsOfRoots symbols graph (root :: rest) = .ok (functions, final) ↔
      ∃ own resolved others, functionsOfRoot symbols graph root = .ok (own, resolved) ∧
        functionsOfRoots symbols resolved rest = .ok (others, final) ∧ functions = own ++ others := by
  constructor
  · intro found
    obtain ⟨⟨own, resolved⟩, first, found⟩ := bind_eq_ok found
    obtain ⟨⟨others, complete⟩, further, found⟩ := bind_eq_ok found
    cases found
    exact ⟨own, resolved, others, first, further, rfl⟩
  · rintro ⟨own, resolved, others, first, further, rfl⟩
    rw [functionsOfRoots, first]
    show functionsOfRoots symbols resolved rest >>= _ = _
    rw [further]
    rfl

/-- The functions that discovery answers are those of the chains below the roots. -/
theorem functionsOfRoots_discovers {roots : List String} {functions : List Function} {final : Graph}
    (found : functionsOfRoots symbols graph roots = .ok (functions, final)) :
    Discovers symbols graph roots functions final := by
  induction roots generalizing graph functions with
  | nil =>
    cases found
    exact .nil
  | cons root rest ih =>
    obtain ⟨own, resolved, others, first, further, rfl⟩ := functionsOfRoots_cons_eq_ok.mp found
    obtain ⟨id, exported, rfl, has⟩ := functionsOfRoot_eq_ok.mp first
    exact .cons exported has (functionsBelow_recordsChains resolved root id) (ih further)

/-- The graph of a discovery is the graph after the exports of its roots. -/
theorem functionsOfRoots_graph {roots : List String} {after : Graph} {functions : List Function}
    (found : functionsOfRoots symbols graph roots = .ok (functions, after)) :
    after = graphAfter symbols roots graph := by
  induction roots generalizing graph functions with
  | nil =>
    cases found
    rfl
  | cons root rest ih =>
    obtain ⟨own, resolved, others, first, further, rfl⟩ := functionsOfRoots_cons_eq_ok.mp found
    obtain ⟨id, exported, _, _⟩ := functionsOfRoot_eq_ok.mp first
    have same : resolved = (exportType? symbols root graph).2 := by rw [exported]
    show after = graphAfter symbols rest (exportType? symbols root graph).2
    rw [← same]
    exact ih further

/-- Discovery answers where every root has functions, or none for want of properties, when its type is
resolved after those of the roots before. -/
theorem exists_functionsOfRoots_iff {roots : List String} :
    (∃ functions final, functionsOfRoots symbols graph roots = .ok (functions, final)) ↔
      ∀ before root after, roots = before ++ root :: after →
        ∃ id resolved, exportType? symbols root (graphAfter symbols before graph) = (some id, resolved) ∧
          HasFunctions resolved id := by
  induction roots generalizing graph with
  | nil =>
    refine iff_of_true ⟨[], graph, rfl⟩ fun before root after same => ?_
    exact absurd same.symm (List.append_ne_nil_of_right_ne_nil _ (List.cons_ne_nil _ _))
  | cons first rest ih =>
    constructor
    · rintro ⟨functions, final, found⟩ before root after same
      obtain ⟨own, resolved, others, entered, further, _⟩ :=
        functionsOfRoots_cons_eq_ok.mp found
      obtain ⟨id, exported, _, has⟩ := functionsOfRoot_eq_ok.mp entered
      cases before with
      | nil =>
        cases same
        exact ⟨id, resolved, exported, has⟩
      | cons _ before =>
        cases same
        have there := ih.mp ⟨others, final, further⟩ before root after rfl
        rw [show resolved = (exportType? symbols first graph).2 by rw [exported]] at there
        exact there
    · intro all
      obtain ⟨id, resolved, exported, has⟩ := all [] first rest rfl
      have entered : functionsOfRoot symbols graph first =
          .ok (functionsBelow resolved first id, resolved) :=
        functionsOfRoot_eq_ok.mpr ⟨id, exported, rfl, has⟩
      have others : ∃ functions final,
          functionsOfRoots symbols resolved rest = .ok (functions, final) := by
        refine ih.mpr fun before root after same => ?_
        have there := all (first :: before) root after (congrArg (first :: ·) same)
        rw [show resolved = (exportType? symbols first graph).2 by
          rw [show exportType? symbols first graph = (some id, resolved) from exported]]
        exact there
      obtain ⟨functions, final, further⟩ := others
      exact ⟨_, final, functionsOfRoots_cons_eq_ok.mpr
        ⟨_, resolved, functions, entered, further, rfl⟩⟩

/-- **Discovery is sound, complete and without duplicates.** In every graph and below every type the
functions that are found are one for each chain of properties to a reference of a function, by
increasing positions. Discovery answers the functions of the roots in turn, and it answers exactly
where each root is an exported value that has such a chain or is a namespace without properties. -/
theorem discovery_finds_chains (symbols : Symbols) (graph : Graph) (roots : List String) :
    (∀ root id, RecordsChains graph root id (functionsBelow graph root id)) ∧
    (∀ functions final, functionsOfRoots symbols graph roots = .ok (functions, final) →
      Discovers symbols graph roots functions final) ∧
    ((∃ functions final, functionsOfRoots symbols graph roots = .ok (functions, final)) ↔
      ∀ before root after, roots = before ++ root :: after →
        ∃ id resolved, exportType? symbols root (graphAfter symbols before graph) = (some id, resolved) ∧
          HasFunctions resolved id) :=
  ⟨functionsBelow_recordsChains graph, fun _ _ => functionsOfRoots_discovers, exists_functionsOfRoots_iff⟩

end Discovery

end SwiftBindings.Api
