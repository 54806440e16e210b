/-
**What a filter keeps.**

A filter goes through the namespaces of an interface and puts them together again from the references
that it keeps, without those that keep nothing (`filterWithin`). Seen from a later graph it keeps the
references whose `_visibility` is the wanted one, in their order and under their names
(`filterWithin_keeps`): what it looks at must be known when it looks (`clearFilterWithin`), and then stays
as it is. A namespace that it puts together stands behind all that it holds, so none stands within itself
(`Rebuilt`).
-/

import SwiftBindings.Proofs.Api.References

set_option linter.unusedSectionVars false

namespace SwiftBindings.Api

open Relation TypeGraph

/-! ### References to keep -/

/-- The reference is one to a function of the visibility. -/
def isWanted (graph : Graph) (visibility : String) (reference : Reference) : Bool :=
  graph.literalProperty? reference.2 "_visibility" == some visibility

/-- References to functions are marked. -/
theorem isMarkedReference_of_isFunctionReference {graph : Graph} {id : TypeId}
    (refers : isFunctionReference graph id = true) : graph.isMarkedReference id = true := by
  refine List.all_eq_true.mpr fun name member => List.all_eq_true.mp refers name ?_
  have among : ["_type", "_visibility"] ⊆ sentinels := by decide
  exact among member

/-- The references that the types of properties hold, under the names of the properties. -/
def referencesUnder (graph : Graph) (levels : Nat) (properties : List Property) : List Reference :=
  properties.flatMap fun property =>
    (referencesAt graph levels property.type).map (Reference.under property.name)

/-- A namespace that a filter has put together: the namespaces in it have such namespaces at earlier
places. -/
inductive Rebuilt (graph : Graph) : TypeId → Prop where
  | node {id : TypeId} {properties : List Property} (kind : graph.kind id = .object ⟨properties, none⟩)
    (space : isFunctionReference graph id = false)
    (earlier : ∀ property ∈ properties, isFunctionReference graph property.type = false →
      property.type < id)
    (within : ∀ property ∈ properties, isFunctionReference graph property.type = false →
      Rebuilt graph property.type) : Rebuilt graph id

section Rebuilt

variable {graph : Graph} {id : TypeId}

theorem properties_of_kind {properties : List Property}
    (kind : graph.kind id = .object ⟨properties, none⟩) : graph.properties id = properties := by
  rw [Graph.properties, Graph.propertiesWithin, kind]

theorem Rebuilt.isNamespace (rebuilt : Rebuilt graph id) : IsNamespace graph id := by
  cases rebuilt with
  | node kind space _ _ => exact ⟨by rw [Graph.isStructured, kind], space⟩

/-- What such a namespace contains is a reference, or such a namespace at an earlier place. -/
theorem Rebuilt.contains (rebuilt : Rebuilt graph id) {inner : TypeId}
    (contains : Contains graph id inner) :
    isFunctionReference graph inner = true ∨ (Rebuilt graph inner ∧ inner < id) := by
  obtain ⟨_, property, member, rfl⟩ := contains
  cases rebuilt with
  | node kind space earlier within =>
    rw [properties_of_kind kind] at member
    by_cases refers : isFunctionReference graph property.type = true
    · exact .inl refers
    · have other := Bool.eq_false_iff.mpr refers
      exact .inr ⟨within property member other, earlier property member other⟩

theorem Rebuilt.reached (rebuilt : Rebuilt graph id) {inner : TypeId}
    (reached : ReflTransGen (Contains graph) id inner) :
    isFunctionReference graph inner = true ∨ Rebuilt graph inner := by
  induction reached with
  | refl => exact .inr rebuilt
  | tail _ contains ih =>
    refine (ih.resolve_left fun refers => ?_).contains contains |>.imp_right And.left
    exact absurd (contains.1.2.symm.trans refers) Bool.false_ne_true

theorem Rebuilt.descends (rebuilt : Rebuilt graph id) {inner : TypeId}
    (reached : TransGen (Contains graph) id inner) :
    isFunctionReference graph inner = true ∨ inner < id := by
  induction reached with
  | single contains => exact (rebuilt.contains contains).imp_right And.right
  | tail before contains ih =>
    have space : isFunctionReference graph _ ≠ true := Bool.eq_false_iff.mp contains.1.2
    have between := (rebuilt.reached before.to_reflTransGen).resolve_left space
    exact (between.contains contains).imp_right fun below =>
      Nat.lt_trans below.2 (ih.resolve_left space)

/-- No namespace that a filter has put together stands within itself. -/
theorem Rebuilt.isAcyclic (rebuilt : Rebuilt graph id) : IsAcyclic graph id := by
  intro inner reached itself
  obtain ⟨_, first, _⟩ := TransGen.head'_iff.mp itself
  have space : isFunctionReference graph inner ≠ true := Bool.eq_false_iff.mp first.1.2
  have inside := (rebuilt.reached reached).resolve_left space
  exact (inside.descends itself).elim space (Nat.lt_irrefl _)

end Rebuilt

/-! ### Steps of a filter -/

theorem filterWithin_grows (wanted : Option String) (levels : Nat) (id : TypeId) (graph : Graph) :
    graph.GrowsTo (filterWithin wanted levels id graph).2 := by
  have keeps : Keeps .empty .none (Symbols.empty.room graph + 1) .pass (filterWithin wanted levels id) :=
    keeps_filterWithin wanted levels id
  exact (keeps graph (Nat.lt_succ_self _) rfl).grows

theorem keepProperties_grows (wanted : Option String) (levels : Nat) (properties : List Property)
    (graph : Graph) :
    graph.GrowsTo (keepProperties (filterWithin wanted levels) properties graph).2 := by
  have keeps : Keeps .empty .none (Symbols.empty.room graph + 1) .pass
      (keepProperties (filterWithin wanted levels) properties) :=
    keeps_keepProperties (keeps_filterWithin wanted levels) properties
  exact (keeps graph (Nat.lt_succ_self _) rfl).grows

theorem keepProperties_exhausted (wanted : Option String) (properties : List Property) (graph : Graph) :
    keepProperties (filterWithin wanted 0) properties graph = ([], graph) := by
  induction properties with
  | nil => rfl
  | cons property rest ih => exact ih

section Filter

variable (graph : Graph) (visibility : String)

/-- What a filter has kept of a type, in a later graph: nothing where none of its references are wanted,
and else what holds those that are. Where that is a namespace it has been put together and stands before
the given place, and of a namespace nothing else is kept. -/
def KeptOf (levels size : Nat) (id : TypeId) : Option TypeId → Prop
  | none => (referencesAt graph levels id).filter (isWanted graph visibility) = []
  | some kept =>
    (referencesAt graph levels id).filter (isWanted graph visibility) ≠ [] ∧
    (∀ more, levels ≤ more → referencesAt graph more kept =
      (referencesAt graph levels id).filter (isWanted graph visibility)) ∧
    (isFunctionReference graph id = false → isFunctionReference graph kept = false) ∧
    (isFunctionReference graph kept = false → Rebuilt graph kept ∧ kept < size)

/-- What a filter has kept of properties, in a later graph. -/
structure KeptProperties (levels size : Nat) (properties kept : List Property) : Prop where
  references : ∀ more, levels ≤ more → referencesUnder graph more kept =
    (referencesUnder graph levels properties).filter (isWanted graph visibility)
  inhabited : kept ≠ [] →
    (referencesUnder graph levels properties).filter (isWanted graph visibility) ≠ []
  names : kept.map Property.name ⊆ properties.map Property.name
  rebuilt : ∀ property ∈ kept, isFunctionReference graph property.type = false →
    Rebuilt graph property.type ∧ property.type < size

variable {graph visibility}

/-- What is wanted of the references under a name is what is wanted of them. -/
theorem filter_map_under (name : String) (references : List Reference) :
    (references.map (Reference.under name)).filter (isWanted graph visibility) =
      (references.filter (isWanted graph visibility)).map (Reference.under name) :=
  List.filter_map

theorem KeptOf.mono {levels size more : Nat} {id : TypeId} {kept : Option TypeId}
    (holds : KeptOf graph visibility levels size id kept) (grows : size ≤ more) :
    KeptOf graph visibility levels more id kept := by
  cases kept with
  | none => exact holds
  | some kept =>
    refine ⟨holds.1, holds.2.1, holds.2.2.1, fun space => ?_⟩
    obtain ⟨rebuilt, before⟩ := holds.2.2.2 space
    exact ⟨rebuilt, Nat.lt_of_lt_of_le before grows⟩

/-- One more property is kept or dropped in front of others. -/
theorem KeptProperties.cons {levels size : Nat} {property : Property} {rest others : List Property}
    {kept : Option TypeId} (first : KeptOf graph visibility levels size property.type kept)
    (further : KeptProperties graph visibility levels size rest others) :
    KeptProperties graph visibility levels size (property :: rest)
      (kept.elim others fun type => { property with type } :: others) := by
  have split : (referencesUnder graph levels (property :: rest)).filter (isWanted graph visibility) =
      ((referencesAt graph levels property.type).filter (isWanted graph visibility)).map
          (Reference.under property.name) ++
        (referencesUnder graph levels rest).filter (isWanted graph visibility) := by
    rw [referencesUnder, List.flatMap_cons, List.filter_append, filter_map_under, referencesUnder]
  cases kept with
  | none =>
    have nothing : (referencesAt graph levels property.type).filter (isWanted graph visibility) = [] :=
      first
    rw [nothing, List.map_nil, List.nil_append] at split
    refine ⟨fun more enough => ?_, fun some => ?_, List.subset_cons_of_subset _ further.names,
      further.rebuilt⟩
    · rw [split]
      exact further.references more enough
    · rw [split]
      exact further.inhabited some
  | some type =>
    obtain ⟨some, same, _, rebuilt⟩ := first
    refine ⟨fun more enough => ?_, fun _ => ?_, List.cons_subset_cons _ further.names,
      List.forall_mem_cons.mpr ⟨rebuilt, further.rebuilt⟩⟩
    · rw [split, ← same more enough, ← further.references more enough]
      rfl
    · rw [split]
      exact List.append_ne_nil_of_left_ne_nil (mt List.map_eq_nil_iff.mp some) _

/-- A namespace lacks a member of references, and so does one with no other names. -/
theorem isFunctionReference_of_names {id kept : TypeId} (space : isFunctionReference graph id = false)
    (names : (graph.properties kept).map Property.name ⊆ (graph.properties id).map Property.name) :
    isFunctionReference graph kept = false := by
  obtain ⟨name, member, missing⟩ := List.all_eq_false.mp space
  refine List.all_eq_false.mpr ⟨name, member, fun found => missing ?_⟩
  obtain ⟨property, held⟩ := Option.isSome_iff_exists.mp found
  have among : name ∈ (graph.properties id).map Property.name := by
    have same := List.find?_some held
    exact names (List.mem_map.mpr ⟨property, List.mem_of_find?_eq_some held, beq_iff_eq.mp same⟩)
  obtain ⟨other, inside, same⟩ := List.mem_map.mp among
  exact List.find?_isSome.mpr ⟨other, inside, beq_iff_eq.mpr same⟩

/-- What a filter answers for a namespace of which it has kept the properties. -/
def assemble (kept : List Property) : Building (Option TypeId) := do
  if kept.isEmpty then return none
  else return some (← objectType ⟨kept, none⟩)

theorem assemble_grows (kept : List Property) (graph : Graph) :
    graph.GrowsTo (assemble kept graph).2 := by
  cases kept with
  | nil => exact .refl graph
  | cons first rest => exact allocate_grows Kind.noConfusion _ graph

/-- What is kept of the properties of a namespace is put together, unless it is nothing. -/
theorem keptOf_namespace {levels : Nat} {id : TypeId} {kept : List Property} {after : Graph}
    (space : IsNamespace graph id)
    (keeps : KeptProperties graph visibility levels after.nodes.size (graph.properties id) kept)
    (continues : (assemble kept after).2.Continues graph) :
    KeptOf graph visibility (levels + 1) (assemble kept after).2.nodes.size id
      (assemble kept after).1 := by
  have own : referencesAt graph (levels + 1) id = referencesUnder graph levels (graph.properties id) :=
    referencesAt_namespace space _
  cases kept with
  | nil =>
    show (referencesAt graph (levels + 1) id).filter (isWanted graph visibility) = []
    rw [own]
    exact (keeps.references levels (Nat.le_refl _)).symm
  | cons first rest =>
    have has : (assemble (first :: rest) after).2.HasKind after.nodes.size
        (.object ⟨first :: rest, none⟩) := allocate_hasKind _ _ after
    have kind := (continues.hasKind has Kind.noConfusion).kind_eq
    have properties := properties_of_kind kind
    have other : isFunctionReference graph after.nodes.size = false :=
      isFunctionReference_of_names space.2 (properties ▸ keeps.names)
    have rebuilt : Rebuilt graph after.nodes.size :=
      .node kind other (fun property member plain => (keeps.rebuilt property member plain).2)
        fun property member plain => (keeps.rebuilt property member plain).1
    refine ⟨own ▸ keeps.inhabited (List.cons_ne_nil _ _), fun more enough => ?_, fun _ => other,
      fun _ => ⟨rebuilt, has.lt_size⟩⟩
    obtain ⟨more, rfl⟩ := Nat.exists_eq_add_of_lt (Nat.lt_of_lt_of_le (Nat.lt_succ_self levels) enough)
    rw [own, ← keeps.references (levels + more) (Nat.le_add_right _ _)]
    show referencesAt graph (levels + more + 1) after.nodes.size = _
    rw [referencesAt_namespace rebuilt.isNamespace, referencesWithin_succ, properties]
    rfl

/-- Every type at or below the given one that is marked as a reference is one. -/
def IsMarkedWell (graph : Graph) (id : TypeId) : Prop :=
  ∀ inner, ReflTransGen (Contains graph) id inner → graph.isMarkedReference inner = true →
    isFunctionReference graph inner = true

/-- Keeping properties one by one keeps what is kept of each. -/
theorem keepProperties_keeps {levels : Nat} {properties : List Property}
    (each : ∀ property ∈ properties, ∀ seen : Graph,
      clearFilterWithin (some visibility) (levels + 1) property.type seen = true →
      (filterWithin (some visibility) (levels + 1) property.type seen).2.Continues graph →
      KeptOf graph visibility levels
        (filterWithin (some visibility) (levels + 1) property.type seen).2.nodes.size property.type
        (filterWithin (some visibility) (levels + 1) property.type seen).1)
    {seen : Graph}
    (clear : clearKept (filterWithin (some visibility) (levels + 1))
      (clearFilterWithin (some visibility) (levels + 1)) properties seen = true)
    (continues : (keepProperties (filterWithin (some visibility) (levels + 1)) properties
      seen).2.Continues graph) :
    KeptProperties graph visibility levels
      (keepProperties (filterWithin (some visibility) (levels + 1)) properties seen).2.nodes.size
      properties (keepProperties (filterWithin (some visibility) (levels + 1)) properties seen).1 := by
  induction properties generalizing seen with
  | nil =>
    exact ⟨fun _ _ => rfl, fun some => absurd rfl some, List.Subset.refl _,
      fun _ member => absurd member List.not_mem_nil⟩
  | cons property rest ih =>
    obtain ⟨clearFirst, clearRest⟩ := Bool.and_eq_true_iff.mp clear
    obtain ⟨own, others⟩ := List.forall_mem_cons.mp each
    rw [keepProperties, bind_apply] at continues ⊢
    have first := own seen clearFirst
    generalize filterWithin (some visibility) (levels + 1) property.type seen = answer
      at clearRest continues first ⊢
    obtain ⟨kept, between⟩ := answer
    have grows := keepProperties_grows (some visibility) (levels + 1) rest between
    have reached : (keepProperties (filterWithin (some visibility) (levels + 1)) rest
        between).2.Continues graph := by
      cases kept with
      | none => exact continues
      | some type => exact continues
    have further := ih others clearRest reached
    have all := KeptProperties.cons
      (KeptOf.mono (first (grows.continues.trans reached)) grows.size_le) further
    cases kept with
    | none => exact all
    | some type => exact all

/-- What a filter does with a type: it keeps or drops a reference, drops what is no namespace, and goes
through the properties of a namespace. -/
theorem filterWithin_succ (visibility : String) (levels : Nat) (id : TypeId) (seen : Graph) :
    filterWithin (some visibility) (levels + 1) id seen =
      if seen.isMarkedReference id then
        (if seen.literalProperty? id "_visibility" = some visibility then some id else none, seen)
      else if seen.isStructured id then
        (keepProperties (filterWithin (some visibility) levels) (seen.properties id) >>= assemble) seen
      else (none, seen) := by
  rw [filterWithin, get_bind_apply]
  split
  · rfl
  · cases seen.isStructured id with
    | false => rfl
    | true => rfl

section Looks

variable {levels : Nat} {id : TypeId} {seen : Graph}

/-- What is kept of a type, if what is kept of its properties where it is a namespace is known. -/
theorem filterWithin_keeps_of (well : IsMarkedWell graph id)
    (clear : clearFilterWithin (some visibility) (levels + 1) id seen = true)
    (continues : (filterWithin (some visibility) (levels + 1) id seen).2.Continues graph)
    (space : IsNamespace graph id → graph.properties id = seen.properties id →
      clearKept (filterWithin (some visibility) levels) (clearFilterWithin (some visibility) levels)
        (seen.properties id) seen = true →
      let answer := (keepProperties (filterWithin (some visibility) levels) (seen.properties id) >>=
        assemble) seen
      answer.2.Continues graph →
        KeptOf graph visibility levels answer.2.nodes.size id answer.1) :
    KeptOf graph visibility levels
      (filterWithin (some visibility) (levels + 1) id seen).2.nodes.size id
      (filterWithin (some visibility) (levels + 1) id seen).1 := by
  have before := (filterWithin_grows (some visibility) (levels + 1) id seen).continues.trans continues
  obtain ⟨known, inside⟩ := Bool.and_eq_true_iff.mp clear
  have marked := before.isMarkedReference_eq known
  have structured := before.isStructured_eq (Bool.and_eq_true_iff.mp known).1
  rw [filterWithin_succ] at continues ⊢
  by_cases refers : seen.isMarkedReference id = true
  · have reference := well id .refl (marked.trans refers)
    rw [if_pos refers] at inside
    have literal : graph.literalProperty? id "_visibility" = seen.literalProperty? id "_visibility" :=
      before.literalProperty?_eq inside
    rw [if_pos refers]
    split
    · rename_i same
      have wanted : isWanted graph visibility ([], id) = true :=
        beq_iff_eq.mpr (literal.trans same)
      have kept : (referencesAt graph levels id).filter (isWanted graph visibility) = [([], id)] := by
        rw [referencesAt_reference reference, List.filter_cons_of_pos wanted, List.filter_nil]
      refine ⟨?_, fun more _ => ?_, fun other => other, fun other => ?_⟩
      · rw [kept]
        exact List.cons_ne_nil _ _
      · rw [kept, referencesAt_reference reference]
      · exact absurd (other.symm.trans reference) Bool.false_ne_true
    · rename_i different
      have unwanted : ¬isWanted graph visibility ([], id) = true := fun wanted =>
        different (literal.symm.trans (beq_iff_eq.mp wanted))
      show (referencesAt graph levels id).filter (isWanted graph visibility) = []
      rw [referencesAt_reference reference, List.filter_cons_of_neg unwanted, List.filter_nil]
  · have other : isFunctionReference graph id = false := Bool.eq_false_iff.mpr fun reference =>
      refers (marked.symm.trans (isMarkedReference_of_isFunctionReference reference))
    rw [if_neg refers] at inside continues ⊢
    by_cases shaped : seen.isStructured id = true
    · rw [shaped, Bool.not_true, Bool.false_or] at inside
      rw [if_pos shaped] at continues ⊢
      exact space ⟨structured.trans shaped, other⟩ (before.properties_eq known) inside continues
    · rw [if_neg shaped]
      show (referencesAt graph levels id).filter (isWanted graph visibility) = []
      rw [referencesAt_other other (structured.trans (Bool.eq_false_iff.mpr shaped)), List.filter_nil]

end Looks

/-- **A filter keeps the wanted references.** What is kept of a type, seen from a later graph, holds its
references with the wanted visibility and no others. -/
theorem filterWithin_keeps {levels : Nat} {id : TypeId} (well : IsMarkedWell graph id) {seen : Graph}
    (clear : clearFilterWithin (some visibility) (levels + 1) id seen = true)
    (continues : (filterWithin (some visibility) (levels + 1) id seen).2.Continues graph) :
    KeptOf graph visibility levels (filterWithin (some visibility) (levels + 1) id seen).2.nodes.size id
      (filterWithin (some visibility) (levels + 1) id seen).1 := by
  induction levels generalizing id seen with
  | zero =>
    refine filterWithin_keeps_of well clear continues fun space _ _ => ?_
    rw [bind_apply, keepProperties_exhausted]
    intro _ _
    show (referencesAt graph 0 id).filter (isWanted graph visibility) = []
    rw [referencesAt_namespace space]
    rfl
  | succ levels ih =>
    refine filterWithin_keeps_of well clear continues fun space same inside => ?_
    intro answer reached
    refine keptOf_namespace space ?_ reached
    rw [same]
    refine keepProperties_keeps (fun property member before clear continues => ?_) inside ?_
    · have contains : Contains graph id property.type := ⟨space, property, same ▸ member, rfl⟩
      exact ih (fun inner below => well inner (.head contains below)) clear continues
    · exact (assemble_grows _ _).continues.trans reached

/-! ### Filtered interfaces -/

theorem filteredType_of_isStructured {api filter : TypeId} {seen : Graph}
    (structured : seen.isStructured api = true) :
    filteredType api filter seen =
      let kept := filterWithin (seen.literalProperty? filter "_visibility") (walkDepth + 1) api seen
      match kept.1 with
      | some id => (id, kept.2)
      | none => allocate (.object ⟨[], none⟩) "\x7b\x7d" kept.2 := by
  rw [filteredType, get_bind_apply, if_pos structured, bind_apply]
  generalize filterWithin _ _ _ _ = kept
  obtain ⟨_ | id, after⟩ := kept
  · rfl
  · rfl

/-- **A filtered interface is a namespace without cycles that holds the wanted references**: the empty
one where there are none. -/
theorem filteredType_keeps {api filter : TypeId} {seen : Graph}
    (literal : seen.literalProperty? filter "_visibility" = some visibility)
    (clear : clearFiltered api filter seen = true) (space : IsNamespace graph api)
    (well : IsMarkedWell graph api) (known : seen.isStructured api = true)
    (continues : (filteredType api filter seen).2.Continues graph) :
    Rebuilt graph (filteredType api filter seen).1 ∧
      (∀ more, walkDepth < more → referencesWithin graph more (filteredType api filter seen).1 =
        (referencesWithin graph walkDepth api).filter (isWanted graph visibility)) ∧
      ((referencesWithin graph walkDepth api).filter (isWanted graph visibility) = [] →
        graph.properties (filteredType api filter seen).1 = []) := by
  obtain ⟨_, inside⟩ := Bool.and_eq_true_iff.mp clear
  rw [known, Bool.not_true, Bool.false_or, literal] at inside
  obtain ⟨_, clearWithin⟩ := Bool.and_eq_true_iff.mp inside
  rw [filteredType_of_isStructured known, literal] at continues ⊢
  rw [← referencesAt_namespace space]
  have keeps : (filterWithin (some visibility) (walkDepth + 1) api seen).2.Continues graph →
      KeptOf graph visibility walkDepth
        (filterWithin (some visibility) (walkDepth + 1) api seen).2.nodes.size api
        (filterWithin (some visibility) (walkDepth + 1) api seen).1 :=
    filterWithin_keeps well clearWithin
  generalize filterWithin (some visibility) (walkDepth + 1) api seen = kept at continues keeps ⊢
  obtain ⟨_ | id, after⟩ := kept
  · have added : after.GrowsTo (allocate (.object ⟨[], none⟩) "\x7b\x7d" after).2 :=
      allocate_grows Kind.noConfusion _ after
    have has := continues.hasKind
      (allocate_hasKind (.object ⟨[], none⟩) "\x7b\x7d" after) Kind.noConfusion
    have properties : graph.properties after.nodes.size = [] := properties_of_kind has.kind_eq
    have other : isFunctionReference graph after.nodes.size = false :=
      isFunctionReference_of_names space.2 (properties ▸ List.nil_subset _)
    have nothing : (referencesAt graph walkDepth api).filter (isWanted graph visibility) = [] :=
      keeps (added.continues.trans continues)
    refine ⟨.node has.kind_eq other (fun _ member => absurd member List.not_mem_nil)
      fun _ member => absurd member List.not_mem_nil, fun more enough => ?_, fun _ => properties⟩
    obtain ⟨more, rfl⟩ := Nat.exists_eq_add_of_lt enough
    rw [nothing]
    show referencesWithin graph (walkDepth + more + 1) after.nodes.size = []
    rw [referencesWithin_succ, properties]
    rfl
  · obtain ⟨some, same, other, rebuilt⟩ := keeps continues
    have whole := (rebuilt (other space.2)).1
    refine ⟨whole, fun more enough => ?_, fun nothing => absurd nothing some⟩
    rw [← same more (Nat.le_of_lt enough), referencesAt_namespace whole.isNamespace]

end Filter

end SwiftBindings.Api
