/-
**Reduction depends only on the ancestors.**

The types that are being reduced, each within the one before it, are the ancestors of what is met next.
They alone decide where a reduction stops (`stop?`): at a type that is met with `maximalNesting` ancestors,
and at one that is its own ancestor. From every other type the reduction goes on to the parts of its
validator, one more ancestor deep; `Visits` lists all types that are met in this way, each with its place
in the validator.

The number of levels that `reduceWithin` may go through is never what ends it: `searchOn?` is the same
search without that bound, which may come to no end.

**The main statement.** `reduction_by_ancestors`: whatever was reduced before, the search comes to an end
and leaves the trail as it was, an unknown value says that a type was met too deeply or again exactly where
this is so, each part is reduced by its ancestors alone, and validators are nested no deeper than
`maximalNesting + 1`.
-/

import SwiftBindings.Proofs.Reduction.Makeup

namespace SwiftBindings

open Declared TypeGraph

namespace Reduction

/-! ### Trails that arise -/

/-- The trails that arise from the empty one: inside a type that is entered, and after a visit. -/
inductive Trail.Arises (graph : Graph) : Trail → Prop where
  | empty : Arises graph .empty
  | inside {trail : Trail} {id : TypeId} (arises : Arises graph trail)
    (shallow : trail.depth < maximalNesting) (new : id ∉ trail.chain) : Arises graph (trail.enter id)
  | after {trail : Trail} (id : TypeId) (arises : Arises graph trail) :
    Arises graph (reduceOn graph id trail).2

/-- The trail with the given types on it. -/
def Trail.of (ancestors : List TypeId) : Trail := ⟨ancestors, ancestors.length⟩

theorem Trail.enter_of (ancestors : List TypeId) (id : TypeId) :
    (Trail.of ancestors).enter id = .of (id :: ancestors) := rfl

/-- A trail that arises counts the types on it, and they are not too many. -/
theorem Trail.Arises.eq_of {graph : Graph} {trail : Trail} (arises : trail.Arises graph) :
    trail = .of trail.chain ∧ trail.chain.length ≤ maximalNesting := by
  induction arises with
  | empty => exact ⟨rfl, Nat.zero_le _⟩
  | @inside trail id _ shallow _ ih =>
    obtain ⟨same, _⟩ := ih
    rw [same] at shallow ⊢
    exact ⟨rfl, shallow⟩
  | @after trail id _ ih =>
    rw [reduceOn, trail_reduceWithin]
    exact ih

/-! ### Where a reduction stops -/

/-- The reason for which a type is not reduced, by its ancestors. -/
def stop? (ancestors : List TypeId) (id : TypeId) : Option Gap :=
  if maximalNesting ≤ ancestors.length then some .depthLimit
  else if id ∈ ancestors then some .cycle
  else none

theorem stop?_eq_depthLimit {ancestors : List TypeId} {id : TypeId} :
    stop? ancestors id = some .depthLimit ↔ maximalNesting ≤ ancestors.length := by
  rw [stop?]
  split
  · rename_i deep
    exact iff_of_true rfl deep
  · rename_i shallow
    refine iff_of_false (fun same => ?_) shallow
    split at same <;> cases same

theorem stop?_eq_cycle {ancestors : List TypeId} {id : TypeId} :
    stop? ancestors id = some .cycle ↔ ancestors.length < maximalNesting ∧ id ∈ ancestors := by
  rw [stop?]
  split
  · rename_i deep
    exact iff_of_false (fun same => by cases same) fun both => absurd deep (Nat.not_le.mpr both.1)
  · rename_i shallow
    split
    · rename_i met
      exact iff_of_true rfl ⟨Nat.lt_of_not_le shallow, met⟩
    · rename_i new
      exact iff_of_false (fun same => by cases same) fun both => new both.2

theorem stop?_eq_none {ancestors : List TypeId} {id : TypeId} :
    stop? ancestors id = none ↔ ancestors.length < maximalNesting ∧ id ∉ ancestors := by
  rw [stop?]
  split
  · rename_i deep
    exact iff_of_false (fun same => by cases same) fun both => absurd deep (Nat.not_le.mpr both.1)
  · rename_i shallow
    split
    · rename_i met
      exact iff_of_false (fun same => by cases same) fun both => both.2 met
    · rename_i new
      exact iff_of_true rfl ⟨Nat.lt_of_not_le shallow, new⟩

/-- A reduction stops for no other reason. -/
theorem eq_of_stop? {ancestors : List TypeId} {id : TypeId} {gap : Gap}
    (stops : stop? ancestors id = some gap) : gap = .depthLimit ∨ gap = .cycle := by
  rw [stop?] at stops
  split at stops
  · exact .inl (Option.some.inj stops).symm
  · split at stops
    · exact .inr (Option.some.inj stops).symm
    · cases stops

/-! ### Levels -/

section Levels

variable {graph : Graph}

/-- **The number of levels does not matter** where there are enough for the types that the trail leaves
room for. -/
theorem reduceWithin_levels (levels : Nat) : ∀ (more : Nat) (trail : Trail) (id : TypeId),
    maximalNesting < levels + trail.depth → maximalNesting < more + trail.depth →
      reduceWithin graph levels id trail = reduceWithin graph more id trail := by
  have deep : ∀ (levels : Nat) (trail : Trail) (id : TypeId), maximalNesting ≤ trail.depth →
      reduceWithin graph levels id trail = (gapOf graph id .depthLimit, trail) := by
    intro levels trail id full
    cases levels with
    | zero => rfl
    | succ levels => exact reduceWithin_deep levels full
  induction levels with
  | zero =>
    intro more trail id enough _
    rw [deep 0 trail id (by omega), deep more trail id (by omega)]
  | succ levels ih =>
    intro more trail id enough further
    cases more with
    | zero => rw [deep 0 trail id (by omega), deep (levels + 1) trail id (by omega)]
    | succ more =>
      by_cases shallow : trail.depth < maximalNesting
      · by_cases met : id ∈ trail.chain
        · rw [reduceWithin_cycle levels shallow met, reduceWithin_cycle more shallow met]
        · rw [reduceWithin_succ levels shallow met, reduceWithin_succ more shallow met,
            classify_eq_build (trail_reduceWithin levels), classify_eq_build (trail_reduceWithin more)]
          have inner : ∀ part, reduceWithin graph levels part (trail.enter id) =
              reduceWithin graph more part (trail.enter id) := fun part =>
            ih more (trail.enter id) part (by rw [Trail.enter]; dsimp only; omega)
              (by rw [Trail.enter]; dsimp only; omega)
          simp only [inner]
      · rw [deep _ trail id (by omega), deep _ trail id (by omega)]

theorem trail_reduceOn (id : TypeId) (trail : Trail) : (reduceOn graph id trail).2 = trail :=
  trail_reduceWithin _ id trail

end Levels

/-- The validator of a type that is met with the given ancestors. -/
def validatorOf (graph : Graph) (ancestors : List TypeId) (id : TypeId) : Validator :=
  (reduceOn graph id (.of ancestors)).1

section Validators

variable {graph : Graph} {ancestors : List TypeId} {id : TypeId}

/-- A type at which the reduction stops is unknown. -/
theorem validatorOf_of_stop? {gap : Gap} (stops : stop? ancestors id = some gap) :
    validatorOf graph ancestors id = gapOf graph id gap := by
  rcases eq_of_stop? stops with rfl | rfl
  · have full := stop?_eq_depthLimit.mp stops
    rw [validatorOf, reduceOn,
      reduceWithin_deep maximalNesting (show maximalNesting ≤ (Trail.of ancestors).depth from full)]
  · obtain ⟨shallow, met⟩ := stop?_eq_cycle.mp stops
    rw [validatorOf, reduceOn, reduceWithin_cycle maximalNesting
      (show (Trail.of ancestors).depth < maximalNesting from shallow) met]

/-- **Any other type is reduced to what its parts are reduced to**, with one more ancestor. -/
theorem validatorOf_of_none (goes : stop? ancestors id = none) :
    validatorOf graph ancestors id =
      (makeup graph id).build (validatorOf graph (id :: ancestors)) := by
  obtain ⟨shallow, new⟩ := stop?_eq_none.mp goes
  have entered : reduceOn graph id (.of ancestors) = _ := reduceWithin_succ maximalNesting shallow new
  rw [classify_eq_build (trail_reduceWithin maximalNesting), Trail.enter_of] at entered
  have inner : ∀ part, (reduceWithin graph maximalNesting part (.of (id :: ancestors))).1 =
      validatorOf graph (id :: ancestors) part := fun part =>
    congrArg Prod.fst (reduceWithin_levels _ _ _ part
      (by rw [Trail.of, List.length_cons]; dsimp only; omega)
      (by rw [Trail.of, List.length_cons]; dsimp only; omega))
  simp only [inner] at entered
  exact congrArg Prod.fst entered

end Validators

end Reduction

/-! ### The search without a bound -/

section

open Reduction

mutual

/-- The validator of a type that is met on a trail, by a search that may come to no end. -/
def TypeGraph.Graph.searchOn? (graph : Graph) (id : TypeId) : StateT Trail Option Validator := do
  let trail ← get
  if trail.depth ≥ maximalNesting then return gapOf graph id .depthLimit
  else if id ∈ trail.chain then return gapOf graph id .cycle
  else
    set (trail.enter id)
    let validator ← match makeup graph id with
      | .leaf validator => pure validator
      | .alternative member optional nullable => do
        let validator ← graph |>.searchOn? member
        pure (validator.admitting optional nullable)
      | .list element => do
        let validator ← graph |>.searchOn? element
        pure (.ofShape (.array validator))
      | .mapping value => do
        let validator ← graph |>.searchOn? value
        pure (.ofShape (.record none validator))
      | .object properties => do
        let fields ← graph |>.searchFields? properties
        pure (.ofShape (.object fields))
    modify fun inner => inner.leave id
    return validator
partial_fixpoint

/-- The fields of properties that are met on a trail, one after the other. -/
def TypeGraph.Graph.searchFields? (graph : Graph) (properties : List Property) :
    StateT Trail Option (List Field) := do
  match properties with
  | [] => return []
  | property :: rest =>
    let schema ← graph |>.searchOn? property.type
    let fields ← graph |>.searchFields? rest
    return .declare property.name schema property.optional :: fields
partial_fixpoint

end

end

namespace Reduction

section Search

variable {graph : Graph}

/-- Where the types of properties are found on a trail, so are the fields. -/
theorem searchFields?_of {trail : Trail} {found : TypeId → Validator}
    (each : ∀ part, graph.searchOn? part trail = some (found part, trail)) (properties : List Property) :
    graph.searchFields? properties trail =
      some (properties.map fun property =>
        .declare property.name (found property.type) property.optional, trail) := by
  induction properties with
  | nil =>
    rw [Graph.searchFields?]
    rfl
  | cons property rest ih =>
    rw [Graph.searchFields?]
    show (graph.searchOn? property.type trail).bind _ = _
    rw [each property.type]
    show (graph.searchFields? rest trail).bind _ = _
    rw [ih]
    rfl

/-- The search ends at once where the reduction stops. -/
theorem searchOn?_of_stop? {ancestors : List TypeId} {id : TypeId} {reason : Gap}
    (stops : stop? ancestors id = some reason) :
    graph.searchOn? id (.of ancestors) = some (validatorOf graph ancestors id, .of ancestors) := by
  rw [validatorOf_of_stop? stops, Graph.searchOn?]
  rcases eq_of_stop? stops with rfl | rfl
  · exact congrFun (if_pos (stop?_eq_depthLimit.mp stops)) (Trail.of ancestors)
  · obtain ⟨shallow, met⟩ := stop?_eq_cycle.mp stops
    exact congrFun ((if_neg (Nat.not_le.mpr shallow)).trans (if_pos met)) (Trail.of ancestors)

/-- Where it goes on, the search ends if the searches for the parts do. -/
theorem searchOn?_of_none {ancestors : List TypeId} {id : TypeId} (goes : stop? ancestors id = none)
    (inner : ∀ part, graph.searchOn? part (.of (id :: ancestors)) =
      some (validatorOf graph (id :: ancestors) part, .of (id :: ancestors))) :
    graph.searchOn? id (.of ancestors) = some (validatorOf graph ancestors id, .of ancestors) := by
  obtain ⟨shallow, new⟩ := stop?_eq_none.mp goes
  have left : ∀ validator : Validator, some (validator, (Trail.of (id :: ancestors)).leave id) =
      some (validator, .of ancestors) := by
    intro validator
    rw [← Trail.enter_of, Trail.leave_enter]
  rw [validatorOf_of_none goes, Graph.searchOn?]
  refine (congrFun ((if_neg (Nat.not_le.mpr shallow)).trans (if_neg new)) (Trail.of ancestors)).trans ?_
  cases makeup graph id with
  | leaf validator => exact left _
  | alternative member optional nullable =>
    show (graph.searchOn? member (.of (id :: ancestors))).bind _ = _
    rw [inner member]
    exact left _
  | list element =>
    show (graph.searchOn? element (.of (id :: ancestors))).bind _ = _
    rw [inner element]
    exact left _
  | mapping value =>
    show (graph.searchOn? value (.of (id :: ancestors))).bind _ = _
    rw [inner value]
    exact left _
  | object properties =>
    show (graph.searchFields? properties (.of (id :: ancestors))).bind _ = _
    rw [searchFields?_of inner]
    exact left _

/-- **The search comes to an end**, and leaves the trail as it was: each type that is entered takes away
some room. -/
theorem searchOn?_of (room : Nat) : ∀ (ancestors : List TypeId) (id : TypeId),
    maximalNesting ≤ room + ancestors.length →
      graph.searchOn? id (.of ancestors) = some (validatorOf graph ancestors id, .of ancestors) := by
  induction room with
  | zero =>
    intro ancestors id enough
    exact searchOn?_of_stop? (stop?_eq_depthLimit.mpr (by omega))
  | succ room ih =>
    intro ancestors id enough
    cases goes : stop? ancestors id with
    | some reason => exact searchOn?_of_stop? goes
    | none =>
      exact searchOn?_of_none goes fun part =>
        ih (id :: ancestors) part (by rw [List.length_cons]; omega)

end Search

/-! ### Visits -/

/-- The types that a reduction meets, each with its ancestors and the place of its validator. -/
inductive Visits (graph : Graph) :
    List TypeId → TypeId → List Step → List TypeId → TypeId → Prop where
  /-- The type itself. -/
  | here (ancestors : List TypeId) (id : TypeId) : Visits graph ancestors id [] ancestors id
  /-- What is met from a part of a type that is entered. -/
  | part {ancestors others : List TypeId} {id part inner : TypeId} {steps place : List Step}
    (goes : stop? ancestors id = none) (has : (makeup graph id).HasPart steps part)
    (visits : Visits graph (id :: ancestors) part place others inner) :
    Visits graph ancestors id (steps ++ place) others inner

section Visits

variable {graph : Graph} {ancestors others : List TypeId} {id inner part : TypeId}
  {place steps : List Step}

theorem Visits.length_le (visits : Visits graph ancestors id place others inner)
    (room : ancestors.length ≤ maximalNesting) : others.length ≤ maximalNesting := by
  induction visits with
  | here => exact room
  | part goes _ _ ih => exact ih (stop?_eq_none.mp goes).1

/-- The validator of a type that is met stands at its place, but for the leaves that unions add. -/
theorem Visits.shape_at? (visits : Visits graph ancestors id place others inner) :
    ((validatorOf graph ancestors id).at? place).map Validator.shape =
      some (validatorOf graph others inner).shape := by
  induction visits with
  | here => rfl
  | part goes has _ ih => rw [validatorOf_of_none goes, has.shape_at?_build, ih]

/-- **A part is reduced by its ancestors alone**: it stands at its place as it is. -/
theorem Visits.part_at? (visits : Visits graph ancestors id place others inner)
    (goes : stop? others inner = none) (has : (makeup graph inner).HasPart steps part)
    (apart : steps ≠ []) : (validatorOf graph ancestors id).at? (place ++ steps) =
      some (validatorOf graph (inner :: others) part) := by
  obtain ⟨found, stands, same⟩ := Option.map_eq_some_iff.mp visits.shape_at?
  have inside := has.at?_build apart (validatorOf graph (inner :: others)) []
  rw [List.append_nil, ← validatorOf_of_none goes] at inside
  rw [Validator.at?_append, stands, Option.bind_some, Validator.at?_congr same apart, inside,
    Validator.at?]

/-- Where the reduction stops, nothing stands inside. -/
theorem eq_nil_of_stop? {reason : Gap} {found : Validator} (stops : stop? ancestors id = some reason)
    (stands : (validatorOf graph ancestors id).at? place = some found) : place = [] := by
  rw [validatorOf_of_stop? stops] at stands
  exact (Shape.isLeaf_unknown (graph.text id) reason).at?_eq_some stands

/-- Where the reduction stops, the type itself is what is met. -/
theorem exists_visits_of_stop? {text : String} {gap reason : Gap}
    (stops : stop? ancestors id = some reason)
    (unknown : (validatorOf graph ancestors id).HasGap place text gap) :
    ∃ others inner, Visits graph ancestors id place others inner ∧ stop? others inner = some gap ∧
      graph.text inner = text := by
  obtain ⟨found, stands, same⟩ := unknown
  obtain rfl := eq_nil_of_stop? stops stands
  rw [validatorOf_of_stop? stops] at stands
  cases stands
  obtain ⟨rfl, rfl⟩ := Shape.unknown.inj same
  exact ⟨ancestors, id, .here ancestors id, stops, rfl⟩

/-- **An unknown value says that a type was met too deeply or again exactly where the reduction stops**
for this reason. -/
theorem hasGap_validatorOf {text : String} {gap : Gap} (stopped : gap = .depthLimit ∨ gap = .cycle) :
    (validatorOf graph ancestors id).HasGap place text gap ↔
      ∃ others inner, Visits graph ancestors id place others inner ∧ stop? others inner = some gap ∧
        graph.text inner = text := by
  constructor
  · suffices met : ∀ (room : Nat) (ancestors : List TypeId) (id : TypeId) (place : List Step),
        maximalNesting ≤ room + ancestors.length →
          (validatorOf graph ancestors id).HasGap place text gap →
            ∃ others inner, Visits graph ancestors id place others inner ∧
              stop? others inner = some gap ∧ graph.text inner = text from
      met maximalNesting ancestors id place (Nat.le_add_right _ _)
    -- Each type that is entered takes away some room.
    intro room
    induction room with
    | zero =>
      intro ancestors id place enough unknown
      exact exists_visits_of_stop? (stop?_eq_depthLimit.mpr (by omega)) unknown
    | succ room ih =>
      intro ancestors id place enough unknown
      cases goes : stop? ancestors id with
      | some reason => exact exists_visits_of_stop? goes unknown
      | none =>
        obtain ⟨found, stands, same⟩ := unknown
        rw [validatorOf_of_none goes] at stands
        obtain ⟨-, harmless⟩ | ⟨steps, part, rest, inner, has, rfl, inside, shapes⟩ :=
          Makeup.exists_part (fun _ leaf => isPlain_leaf leaf) stands
        · obtain ⟨shallow, new⟩ := harmless text gap same
          exact absurd stopped (not_or.mpr ⟨shallow, new⟩)
        · obtain ⟨others, met, visits, stops⟩ :=
            ih (id :: ancestors) part rest (by rw [List.length_cons]; omega)
              ⟨inner, inside, shapes.trans same⟩
          exact ⟨others, met, .part goes has visits, stops⟩
  · rintro ⟨others, inner, visits, stops, rfl⟩
    obtain ⟨found, stands, same⟩ := Option.map_eq_some_iff.mp visits.shape_at?
    rw [validatorOf_of_stop? stops] at same
    exact ⟨found, stands, same⟩

/-- **Validators are nested no deeper than there is room for types.** -/
theorem length_le_of_at? (room : Nat) : ∀ (ancestors : List TypeId) (id : TypeId) (place : List Step)
    (found : Validator), maximalNesting ≤ room + ancestors.length → ancestors.length ≤ maximalNesting →
      (validatorOf graph ancestors id).at? place = some found →
        ancestors.length + place.length ≤ maximalNesting := by
  induction room with
  | zero =>
    intro ancestors id place found enough few stands
    obtain rfl := eq_nil_of_stop? (stop?_eq_depthLimit.mpr (by omega)) stands
    exact few
  | succ room ih =>
    intro ancestors id place found enough few stands
    cases goes : stop? ancestors id with
    | some reason =>
      obtain rfl := eq_nil_of_stop? goes stands
      exact few
    | none =>
      have shallow := (stop?_eq_none.mp goes).1
      rw [validatorOf_of_none goes] at stands
      obtain ⟨rfl, -⟩ | ⟨steps, part, rest, inner, has, rfl, inside, -⟩ :=
        Makeup.exists_part (fun _ leaf => isPlain_leaf leaf) stands
      · exact few
      · have nested := ih (id :: ancestors) part rest inner (by rw [List.length_cons]; omega)
          (by rw [List.length_cons]; omega) inside
        have single := has.length_le
        rw [List.length_cons] at nested
        rw [List.length_append]
        omega

end Visits

/-! ### The main statement -/

/-- After any reductions, one after the other, the trail is what it was. -/
theorem trail_mapM_reduceOn {graph : Graph} (earlier : List TypeId) (trail : Trail) :
    (earlier.mapM (reduceOn graph) trail).2 = trail := by
  induction earlier with
  | nil => rfl
  | cons id rest ih =>
    rw [List.mapM_cons]
    show (rest.mapM (reduceOn graph) (reduceOn graph id trail).2).2 = trail
    rw [trail_reduceOn, ih]

/-- What it means that the reduction of a type depends only on the ancestors. -/
structure DependsOnAncestors (graph : Graph) (trail : Trail) (id : TypeId) : Prop where
  /-- The search comes to an end, with the validator and the trail as it was. -/
  ends : graph.searchOn? id trail = some ((reduceOn graph id trail).1, trail)
  /-- The trail is left as it was. -/
  restores : (reduceOn graph id trail).2 = trail
  /-- An unknown value says that a type was met too deeply exactly where it is met with as many ancestors as
  there may be. -/
  tooDeep : ∀ place text, (reduceOn graph id trail).1.HasGap place text .depthLimit ↔
    ∃ others inner, Visits graph trail.chain id place others inner ∧ others.length = maximalNesting ∧
      graph.text inner = text
  /-- An unknown value says that a type was met again exactly where it is met with fewer ancestors and is
  one of them. -/
  metAgain : ∀ place text, (reduceOn graph id trail).1.HasGap place text .cycle ↔
    ∃ others inner, Visits graph trail.chain id place others inner ∧ others.length < maximalNesting ∧
      inner ∈ others ∧ graph.text inner = text
  /-- A part of any other type that is met has the validator that its ancestors give it. -/
  parts : ∀ {place steps others inner part}, Visits graph trail.chain id place others inner →
    others.length < maximalNesting → inner ∉ others → (makeup graph inner).HasPart steps part →
      steps ≠ [] → (reduceOn graph id trail).1.at? (place ++ steps) =
        some (reduceOn graph part (.of (inner :: others))).1
  /-- What has been reduced before does not matter. -/
  siblings : ∀ earlier : List TypeId,
    (do let _ ← earlier.mapM (reduceOn graph); reduceOn graph id : Visit Validator) trail =
      reduceOn graph id trail
  /-- No chain of validators, each inside the one before it, is too long. -/
  bounded : ∀ place found, (reduceOn graph id trail).1.at? place = some found →
    trail.depth + (place.length + 1) ≤ maximalNesting + 1

/-- **The reduction of a type depends only on the ancestors**, on every trail that can arise. -/
theorem reduction_by_ancestors {graph : Graph} {trail : Trail} (arises : trail.Arises graph)
    (id : TypeId) : DependsOnAncestors graph trail id := by
  obtain ⟨same, few⟩ := arises.eq_of
  generalize trail.chain = ancestors at same few
  subst same
  exact {
    ends := searchOn?_of maximalNesting ancestors id (Nat.le_add_right _ _)
    restores := trail_reduceOn id _
    tooDeep := fun place text => by
      refine (hasGap_validatorOf (.inl rfl)).trans (exists_congr fun others => exists_congr fun inner => ?_)
      refine and_congr_right fun visits => and_congr_left fun _ => ?_
      rw [stop?_eq_depthLimit]
      exact (visits.length_le few).ge_iff_eq
    metAgain := fun place text => by
      refine (hasGap_validatorOf (.inr rfl)).trans (exists_congr fun others => exists_congr fun inner => ?_)
      rw [stop?_eq_cycle, and_assoc]
      rfl
    parts := fun visits shallow new has apart =>
      visits.part_at? (stop?_eq_none.mpr ⟨shallow, new⟩) has apart
    siblings := fun earlier => by
      show reduceOn graph id (earlier.mapM (reduceOn graph) (.of ancestors)).2 = _
      rw [trail_mapM_reduceOn]
    bounded := fun place found stands =>
      Nat.succ_le_succ (length_le_of_at? maximalNesting ancestors id place found
        (Nat.le_add_right _ _) few stands) }

/-- Lists whose cells hold the cell before and the cell after them, which may be absent. -/
def cellGraph : Graph where
  nodes := #[⟨.opaqueType, "(method)"⟩,
    ⟨.object ⟨[⟨"value", 2, false⟩, ⟨"before", 4, false⟩, ⟨"after", 4, false⟩], none⟩, "Cell"⟩,
    ⟨.primitive .string, "string"⟩, ⟨.primitive .null, "null"⟩, ⟨.union [1, 3], "Cell | null"⟩]
  keywords := [(.string, 2), (.null, 3)]
  literals := []
  instances := [(⟨"Cell", []⟩, 1)]
  values := []
  resolving := []
  depth := 0

/-- A cell that may be absent is met again in both directions. -/
theorem cell_met_again :
    DependsOnAncestors cellGraph (Trail.empty.enter 4) 1 ∧
      (reduceOn cellGraph 1 (Trail.empty.enter 4)).1 =
        .ofShape (.object [.declare "value" (.ofShape .string) false,
          .declare "before" (.ofGap "Cell | null" .cycle) false,
          .declare "after" (.ofGap "Cell | null" .cycle) false]) :=
  ⟨reduction_by_ancestors (.inside .empty (by decide) (by decide)) 1, rfl⟩

end Reduction

end SwiftBindings
