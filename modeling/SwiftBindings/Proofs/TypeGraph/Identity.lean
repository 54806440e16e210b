/-
**Places of references.**

A declared type is remembered under its name and the places of its arguments. Two references to it have
one place exactly if their arguments have the same places, so it comes down to the arguments whether a
reference that is written twice is resolved twice. Keywords, string literals and references whose
arguments are such types have one place in a run (`isInterned`); all other literals, lists, tuples,
unions, intersections and object types are built anew each time, and with them all references that they
are arguments of (`isBuilt`).

References are resolved at moments of a run (`Moment`). One that is resolved has its node before what it
stands for is resolved (`Moment.named`), so the moments behind it include those inside of it.

**The main statement.** `same_reference_iff`: a reference that is resolved at two moments, the second
behind the first, has one place exactly if its arguments have; and where each argument is interned or
built, exactly if all of them are interned. Inside the validator of that place it is then a cycle.
-/

import SwiftBindings.Proofs.Reduction.Visits
import SwiftBindings.Proofs.TypeGraph.Reached

namespace SwiftBindings.TypeGraph

open Declared Reduction

/-! ### One type at a place -/

/-- No two declared types have one place: each has been new when it got it. -/
theorem Reached.instance_eq {symbols : Symbols} {graph : Graph} (reached : Reached symbols graph)
    {declared other : Instance} {id : TypeId} (found : graph.instances.lookup declared = some id)
    (found' : graph.instances.lookup other = some id) : declared = other := by
  induction reached with
  | initial => cases found
  | add _ _ _ _ _ ih => exact ih found found'
  | @keyword graph _ keyword ih =>
    have same : (keywordType keyword graph).2.instances = graph.instances := by
      cases known : graph.keywords.lookup keyword with
      | some _ => rw [keywordType_of_some known]
      | none => rw [keywordType_of_none known]; rfl
    rw [same] at found found'
    exact ih found found'
  | @literal graph _ value ih =>
    have same : (stringLiteralType value graph).2.instances = graph.instances := by
      cases known : graph.literals.lookup value with
      | some _ => rw [stringLiteralType_of_some known]
      | none => rw [stringLiteralType_of_none known]; rfl
    rw [same] at found found'
    exact ih found found'
  | @enter graph entered before _ _ ih =>
    have old : ∀ {declared : Instance}, graph.instances.lookup declared ≠ some graph.nodes.size :=
      fun held => Nat.lt_irrefl _ (before.grounded.instance_lt held)
    rcases lookup_enterInstance found with ⟨rfl, rfl⟩ | held
    · rcases lookup_enterInstance found' with ⟨rfl, _⟩ | held'
      · rfl
      · exact absurd held' old
    · rcases lookup_enterInstance found' with ⟨_, rfl⟩ | held'
      · exact absurd held old
      · exact ih held held'
  | leave _ _ _ _ _ _ ih => exact ih found found'
  | start _ _ ih => exact ih found found'
  | finish _ _ _ ih => exact ih found found'

/-! ### Moments -/

/-- A moment of a run at which types are resolved, where at most the given names are bound. -/
structure Moment (symbols : Symbols) (bound : List String) where
  /-- The graph so far. -/
  graph : Graph
  /-- The bound names with the places they stand for. -/
  scope : Scope
  /-- The number of levels further in. -/
  levels : Nat
  reached : Reached symbols graph
  places : graph.Holds scope.places
  enough : symbols.room graph < levels
  names : ∀ entry ∈ scope, entry.1 ∈ bound

section Moment

variable {symbols : Symbols} {bound : List String} (moment : Moment symbols bound)

/-- The place of a type that is resolved at a moment, and the graph after that. -/
def Moment.resolve (type : TypeExpr) : TypeId × Graph :=
  TypeGraph.resolve symbols (.ofLevels symbols moment.levels) moment.scope type moment.graph

/-- The places of types that are resolved one after the other. -/
def Moment.resolveAll (types : List TypeExpr) : List TypeId × Graph :=
  TypeGraph.resolveAll symbols (.ofLevels symbols moment.levels) moment.scope types moment.graph

/-- The place of a reference and the graph in which it has its node: the one after its arguments are
resolved, where it is remembered, and else that graph with its node. -/
def Moment.named (name : String) (arguments : List TypeExpr) : TypeId × Graph :=
  let resolved := moment.resolveAll arguments
  match resolved.2.instances.lookup ⟨name, resolved.1⟩ with
  | some id => (id, resolved.2)
  | none => (resolved.2.nodes.size, (enterInstance ⟨name, resolved.1⟩ resolved.2).2)

theorem Moment.resolve_advances (type : TypeExpr) :
    moment.graph.GrowsTo (moment.resolve type).2 ∧ Reached symbols (moment.resolve type).2 :=
  proceeds_resolve (Deeper.proceeds_ofLevels symbols moment.levels)
    (Deeper.grounds_ofLevels symbols moment.levels) moment.scope type moment.graph moment.reached
    moment.places moment.enough

theorem Moment.resolveAll_advances (types : List TypeExpr) :
    moment.graph.GrowsTo (moment.resolveAll types).2 ∧ Reached symbols (moment.resolveAll types).2 :=
  proceeds_resolveAll (Deeper.proceeds_ofLevels symbols moment.levels)
    (Deeper.grounds_ofLevels symbols moment.levels) moment.scope types moment.graph moment.reached
    moment.places moment.enough

theorem Moment.resolveAll_holds (types : List TypeExpr) :
    (moment.resolveAll types).2.Holds (moment.resolveAll types).1 :=
  (grounds_resolveAll (Deeper.grounds_ofLevels symbols moment.levels) moment.scope types moment.graph
    moment.reached.grounded moment.places).2.2

/-- The moment after a type is resolved. -/
def Moment.after (type : TypeExpr) : Moment symbols bound where
  graph := (moment.resolve type).2
  scope := moment.scope
  levels := moment.levels
  reached := (moment.resolve_advances type).2
  places := moment.places.keep (moment.resolve_advances type).1.size_le
  enough := by
    rw [(moment.resolve_advances type).1.room_eq]
    exact moment.enough
  names := moment.names

theorem Moment.resolveAll_nil : moment.resolveAll [] = ([], moment.graph) := by
  rw [Moment.resolveAll, TypeGraph.resolveAll]
  rfl

theorem Moment.resolveAll_cons (type : TypeExpr) (rest : List TypeExpr) :
    moment.resolveAll (type :: rest) =
      ((moment.resolve type).1 :: ((moment.after type).resolveAll rest).1,
        ((moment.after type).resolveAll rest).2) := by
  rw [Moment.resolveAll, TypeGraph.resolveAll]
  rfl

/-- A name that is not bound is resolved with its arguments. -/
theorem Moment.resolve_reference {name : String} {arguments : List TypeExpr}
    (free : (arguments.isEmpty && bound.contains name) = false) :
    moment.resolve (.reference name arguments) =
      namedType symbols (.ofLevels symbols moment.levels) name (moment.resolveAll arguments).1
        (moment.resolveAll arguments).2 := by
  have held : (if arguments.isEmpty then moment.scope.lookup name else none) = none := by
    split
    · rename_i empty
      rw [empty, Bool.true_and] at free
      cases found : moment.scope.lookup name with
      | none => rfl
      | some id =>
        have inside := moment.names _ (mem_of_lookup_eq_some found)
        rw [List.contains_iff_mem.mpr inside] at free
        cases free
    · rfl
  rw [Moment.resolve, TypeGraph.resolve, held]
  rfl

section Reference

variable {name : String} {arguments : List TypeExpr}
  (free : (arguments.isEmpty && bound.contains name) = false)
  (declared : (symbols.type? name).isSome = true)

include free declared

theorem Moment.exists_levels : ∃ levels, moment.levels = levels + 1 ∧
    moment.resolve (.reference name arguments) =
      instantiateWith symbols (.ofLevels symbols levels) name (moment.resolveAll arguments).1
        (moment.resolveAll arguments).2 := by
  obtain ⟨levels, same⟩ : ∃ levels, moment.levels = levels + 1 :=
    ⟨moment.levels - 1, by have := moment.enough; omega⟩
  refine ⟨levels, same, ?_⟩
  rw [moment.resolve_reference free, namedType, if_pos declared, same]
  rfl

/-- A reference that is remembered has the remembered place. -/
theorem Moment.reference_of_some {id : TypeId} (found : (moment.resolveAll arguments).2.instances.lookup
      ⟨name, (moment.resolveAll arguments).1⟩ = some id) :
    moment.resolve (.reference name arguments) = (id, (moment.resolveAll arguments).2) := by
  obtain ⟨levels, _, same⟩ := moment.exists_levels free declared
  rw [same, instantiateWith_of_some found]

/-- A reference that is not remembered has a new place. -/
theorem Moment.reference_of_none (missing : (moment.resolveAll arguments).2.instances.lookup
      ⟨name, (moment.resolveAll arguments).1⟩ = none) :
    (moment.resolve (.reference name arguments)).1 = (moment.resolveAll arguments).2.nodes.size := by
  obtain ⟨levels, _, same⟩ := moment.exists_levels free declared
  obtain ⟨definition, declares⟩ := Option.isSome_iff_exists.mp declared
  rw [same, instantiateWith_declared missing declares]
  split
  · rfl
  · rfl

/-- **A reference has its node before what it stands for is resolved**, where it is not too deep. -/
theorem Moment.named_continues (shallow : moment.graph.depth < maximalDepth) :
    (moment.resolve (.reference name arguments)).1 = (moment.named name arguments).1 ∧
      (moment.named name arguments).2.Continues (moment.resolve (.reference name arguments)).2 := by
  rw [Moment.named]
  cases found : (moment.resolveAll arguments).2.instances.lookup
      ⟨name, (moment.resolveAll arguments).1⟩ with
  | some id =>
    rw [moment.reference_of_some free declared found]
    exact ⟨rfl, .refl _⟩
  | none =>
    have grows := (moment.resolveAll_advances arguments).1
    obtain ⟨levels, levels_eq, same⟩ := moment.exists_levels free declared
    obtain ⟨definition, declares⟩ := Option.isSome_iff_exists.mp declared
    have still : (moment.resolveAll arguments).2.depth < maximalDepth := grows.depth.symm ▸ shallow
    have enough : symbols.room (enterInstance ⟨name, (moment.resolveAll arguments).1⟩
        (moment.resolveAll arguments).2).2 < levels := by
      have entered := symbols.room_enter ⟨name, (moment.resolveAll arguments).1⟩ still
      have room := moment.enough
      rw [grows.room_eq] at entered
      omega
    let run : InstanceRun symbols .none ⟨name, (moment.resolveAll arguments).1⟩ _ :=
      .first declares (moment.resolveAll arguments).2 levels enough
    have starts : run.StartsIn (moment.resolveAll arguments).2 := ⟨rfl, rfl⟩
    rw [same, instantiateWith_declared found declares, if_neg (Nat.not_le.mpr still)]
    have unfinished := starts.body_grows.hasKind (enterInstance_hasKind _)
    exact ⟨rfl, starts.body_grows.continues.trans (leaveInstance_continues unfinished)⟩

end Reference

/-- The reference is remembered with its node, and the arguments come before it. -/
theorem Moment.named_remembered (name : String) (arguments : List TypeExpr) :
    (moment.named name arguments).2.instances.lookup ⟨name, (moment.resolveAll arguments).1⟩ =
        some (moment.named name arguments).1 ∧
      (moment.resolveAll arguments).2.Continues (moment.named name arguments).2 ∧
      Reached symbols (moment.named name arguments).2 := by
  have after := (moment.resolveAll_advances arguments).2
  rw [Moment.named]
  cases found : (moment.resolveAll arguments).2.instances.lookup
      ⟨name, (moment.resolveAll arguments).1⟩ with
  | some id => exact ⟨found, .refl _, after⟩
  | none => exact ⟨List.lookup_cons_self, enterInstance_continues _ found,
      after.enter found (moment.resolveAll_holds arguments)⟩

end Moment

/-! ### Interned and built types -/

section Interned

variable (symbols : Symbols) (bound : List String)

mutual

/-- The type has one place in a run: a keyword, a string literal, or a declared type with such
arguments. -/
def isInterned : TypeExpr → Bool
  | .keyword _ => true
  | .stringLiteral _ => true
  | .reference name arguments =>
    !(arguments.isEmpty && bound.contains name) && (symbols.type? name).isSome && allInterned arguments
  | _ => false

/-- All of the types have one place in a run. -/
def allInterned : List TypeExpr → Bool
  | [] => true
  | type :: rest => isInterned type && allInterned rest

end

/-- The name stands for a type of the framework that may be one of its arguments, or a type that is
remembered. -/
def passesOn (name : String) (arguments : List TypeExpr) : Bool :=
  (name == "NonNullable" && arguments.length == 1) || (name == "FilterApi" && arguments.length == 2)

mutual

/-- The type has a new place each time it is resolved. -/
def isBuilt : TypeExpr → Bool
  | .keyword _ => false
  | .stringLiteral _ => false
  | .query _ => false
  | .reference name arguments =>
    !(arguments.isEmpty && bound.contains name) &&
      if (symbols.type? name).isSome then anyBuilt arguments else !passesOn name arguments
  | _ => true

/-- Some of the types has a new place each time. -/
def anyBuilt : List TypeExpr → Bool
  | [] => false
  | type :: rest => isBuilt type || anyBuilt rest

end

theorem allInterned_iff {types : List TypeExpr} :
    allInterned symbols bound types = true ↔ ∀ type ∈ types, isInterned symbols bound type = true := by
  induction types with
  | nil => simp [allInterned]
  | cons type rest ih => simp [allInterned, ih]

theorem anyBuilt_iff {types : List TypeExpr} :
    anyBuilt symbols bound types = true ↔ ∃ type ∈ types, isBuilt symbols bound type = true := by
  induction types with
  | nil => simp [anyBuilt]
  | cons type rest ih => simp [anyBuilt, ih]

end Interned

section Resolved

variable {symbols : Symbols} {bound : List String}

mutual

/-- **An interned type has one place**, whatever was resolved in between. -/
theorem resolve_interned : ∀ (type : TypeExpr) (first second : Moment symbols bound),
    isInterned symbols bound type = true → first.graph.depth < maximalDepth →
      (first.resolve type).2.Continues second.graph → (second.resolve type).1 = (first.resolve type).1
  | .keyword keyword, first, second, _, _, later => by
    simp only [Moment.resolve, resolve] at later ⊢
    rw [keywordType_of_some (later.keywords _ _ (lookup_keywordType keyword first.graph))]
  | .stringLiteral value, first, second, _, _, later => by
    simp only [Moment.resolve, resolve] at later ⊢
    rw [stringLiteralType_of_some (later.literals _ _ (lookup_stringLiteralType value first.graph))]
  | .reference name arguments, first, second, interned, shallow, later => by
    simp only [isInterned, Bool.and_eq_true, Bool.not_eq_true'] at interned
    obtain ⟨⟨free, declared⟩, interned⟩ := interned
    obtain ⟨place, named⟩ := first.named_continues free declared shallow
    obtain ⟨remembered, before, _⟩ := first.named_remembered name arguments
    have behind := (before.trans named).trans later
    have same := resolveAll_interned arguments first second interned shallow behind
    have grows := (second.resolveAll_advances arguments).1
    have found := grows.instances _ _ (later.instances _ _ (named.instances _ _ remembered))
    rw [← same] at found
    rw [second.reference_of_some free declared found, place]
  | .numberLiteral _, _, _, interned, _, _ => nomatch interned
  | .booleanLiteral _, _, _, interned, _, _ => nomatch interned
  | .array _, _, _, interned, _, _ => nomatch interned
  | .tuple _, _, _, interned, _, _ => nomatch interned
  | .union _, _, _, interned, _, _ => nomatch interned
  | .intersection _, _, _, interned, _, _ => nomatch interned
  | .object _, _, _, interned, _, _ => nomatch interned
  | .query _, _, _, interned, _, _ => nomatch interned
  | .opaqueText _, _, _, interned, _, _ => nomatch interned

theorem resolveAll_interned : ∀ (types : List TypeExpr) (first second : Moment symbols bound),
    allInterned symbols bound types = true → first.graph.depth < maximalDepth →
      (first.resolveAll types).2.Continues second.graph →
        (second.resolveAll types).1 = (first.resolveAll types).1
  | [], first, second, _, _, _ => by
    rw [first.resolveAll_nil, second.resolveAll_nil]
  | type :: rest, first, second, interned, shallow, later => by
    rw [allInterned, Bool.and_eq_true] at interned
    rw [first.resolveAll_cons] at later ⊢
    rw [second.resolveAll_cons]
    have before := ((first.after type).resolveAll_advances rest).1.continues
    have deeper : (first.after type).graph.depth < maximalDepth :=
      (first.resolve_advances type).1.depth.symm ▸ shallow
    have behind := later.trans (second.resolve_advances type).1.continues
    have head := resolve_interned type first second interned.1 shallow (before.trans later)
    have tail := resolveAll_interned rest (first.after type) (second.after type) interned.2 deeper behind
    rw [head, tail]

end

/-- What the framework provides is added to the graph, unless it may be one of the arguments. -/
theorem providedType_place {name : String} {arguments : List TypeId}
    (own : (¬name = "NonNullable" ∨ ¬arguments.length = 1) ∧
      (¬name = "FilterApi" ∨ ¬arguments.length = 2)) (graph : Graph) :
    (providedType name arguments graph).1 = graph.nodes.size := by
  unfold providedType
  split
  · rfl
  · rfl
  · rfl
  · simp at own
  · simp at own
  · cases PresenceChange.ofName? name with
    | none => rfl
    | some change =>
      show ((if _ then _ else _ : Building TypeId) graph).1 = _
      split
      · rfl
      · rfl
  · rfl

theorem length_resolveAll (moment : Moment symbols bound) (types : List TypeExpr) :
    (moment.resolveAll types).1.length = types.length := by
  induction types generalizing moment with
  | nil =>
    rw [moment.resolveAll_nil]
    rfl
  | cons type rest ih =>
    rw [moment.resolveAll_cons, List.length_cons, List.length_cons, ih]

/-- A type that is built behind other steps has a place that was not there before them. -/
theorem allocate_new {before after : Graph} (grows : before.GrowsTo after) (kind : Kind) (text : String) :
    before.nodes.size ≤ (allocate kind text after).1 :=
  grows.size_le

mutual

/-- **A built type has a place that was not there before.** -/
theorem resolve_built : ∀ (type : TypeExpr) (moment : Moment symbols bound),
    isBuilt symbols bound type = true → moment.graph.nodes.size ≤ (moment.resolve type).1
  | .keyword _, _, built => nomatch built
  | .stringLiteral _, _, built => nomatch built
  | .query _, _, built => nomatch built
  | .numberLiteral _, moment, _ => by
    rw [Moment.resolve, resolve]
    exact allocate_new (.refl _) _ _
  | .booleanLiteral _, moment, _ => by
    rw [Moment.resolve, resolve]
    exact allocate_new (.refl _) _ _
  | .opaqueText _, moment, _ => by
    rw [Moment.resolve, resolve]
    exact allocate_new (.refl _) _ _
  | .array element, moment, _ => by
    rw [Moment.resolve, resolve]
    exact allocate_new (moment.resolve_advances element).1 _ _
  | .tuple elements, moment, _ => by
    rw [Moment.resolve, resolve]
    exact allocate_new (moment.resolveAll_advances elements).1 _ _
  | .intersection parts, moment, _ => by
    rw [Moment.resolve, resolve]
    exact allocate_new (moment.resolveAll_advances parts).1 _ _
  | .union members, moment, _ => by
    rw [Moment.resolve, resolve]
    have grows := (proceeds_resolveAlternatives (Deeper.proceeds_ofLevels symbols moment.levels)
      (Deeper.grounds_ofLevels symbols moment.levels) moment.scope members moment.graph moment.reached
      moment.places moment.enough).1
    exact allocate_new grows _ _
  | .object members, moment, _ => by
    rw [Moment.resolve, resolve]
    have grows := (proceeds_resolveMembers (Deeper.proceeds_ofLevels symbols moment.levels)
      (Deeper.grounds_ofLevels symbols moment.levels) moment.scope ⟨[], none⟩ members moment.graph
      moment.reached moment.places moment.enough).1
    exact allocate_new grows _ _
  | .reference name arguments, moment, built => by
    simp only [isBuilt, Bool.and_eq_true, Bool.not_eq_true'] at built
    obtain ⟨free, built⟩ := built
    have grows := (moment.resolveAll_advances arguments).1
    by_cases declared : (symbols.type? name).isSome = true
    · rw [if_pos declared] at built
      obtain ⟨argument, inside, new⟩ := resolveAll_built arguments moment built
      cases found : (moment.resolveAll arguments).2.instances.lookup
          ⟨name, (moment.resolveAll arguments).1⟩ with
      | none =>
        rw [moment.reference_of_none free declared found]
        exact grows.size_le
      | some id =>
        rw [moment.reference_of_some free declared found]
        rcases grows.fresh _ _ found with before | after
        · have old := moment.reached.grounded.remembers argument (Graph.mem_remembered.mpr
            (.inr (.inr (.inl ⟨_, mem_of_lookup_eq_some before, .inr inside⟩))))
          exact absurd old (Nat.not_lt.mpr new)
        · exact after
    · rw [if_neg declared] at built
      rw [moment.resolve_reference free, namedType, if_neg declared, providedType_place]
      · exact grows.size_le
      · rw [length_resolveAll]
        simpa [passesOn] using built

theorem resolveAll_built : ∀ (types : List TypeExpr) (moment : Moment symbols bound),
    anyBuilt symbols bound types = true →
      ∃ id ∈ (moment.resolveAll types).1, moment.graph.nodes.size ≤ id
  | [], _, built => nomatch built
  | type :: rest, moment, built => by
    rw [anyBuilt, Bool.or_eq_true] at built
    rw [moment.resolveAll_cons]
    rcases built with built | built
    · exact ⟨_, List.mem_cons_self, resolve_built type moment built⟩
    · obtain ⟨id, inside, new⟩ := resolveAll_built rest (moment.after type) built
      exact ⟨id, List.mem_cons_of_mem _ inside,
        Nat.le_trans (moment.resolve_advances type).1.size_le new⟩

end

/-- **References of one place.** A reference to a declared type is resolved at two moments of a run,
below the greatest depth at the first one, and the second one comes when it has its node already. Both
have one place exactly if their arguments have. Where each argument is interned or built, that is exactly
if all are interned. And in that case the second reference is a cycle wherever the first one is being
reduced. -/
theorem same_reference_iff {name : String} {arguments : List TypeExpr}
    (first second : Moment symbols bound) (declared : (symbols.type? name).isSome = true)
    (free : (arguments.isEmpty && bound.contains name) = false)
    (shallow : first.graph.depth < maximalDepth)
    (later : (first.named name arguments).2.Continues second.graph) :
    let one := (first.resolve (.reference name arguments)).1
    let other := (second.resolve (.reference name arguments)).1
    (other = one ↔ (second.resolveAll arguments).1 = (first.resolveAll arguments).1) ∧
      ((∀ argument ∈ arguments, isInterned symbols bound argument = true ∨
          isBuilt symbols bound argument = true) →
        (other = one ↔ ∀ argument ∈ arguments, isInterned symbols bound argument = true)) ∧
      (other = one → ∀ (graph : Graph) (trail : Trail), one ∈ trail.chain →
        trail.depth < maximalNesting →
          reduceOn graph other trail = (gapOf graph other .cycle, trail)) := by
  intro one other
  obtain ⟨place, _⟩ := first.named_continues free declared shallow
  obtain ⟨remembered, before, _⟩ := first.named_remembered name arguments
  have held := later.instances _ _ remembered
  rw [← place] at held
  obtain ⟨grows, reached⟩ := second.resolveAll_advances arguments
  have still := grows.instances _ _ held
  have places : other = one ↔ (second.resolveAll arguments).1 = (first.resolveAll arguments).1 := by
    constructor
    · intro same
      cases found : (second.resolveAll arguments).2.instances.lookup
          ⟨name, (second.resolveAll arguments).1⟩ with
      | some id =>
        have answered : other = id := congrArg Prod.fst (second.reference_of_some free declared found)
        rw [← answered, same] at found
        exact congrArg Instance.arguments (reached.instance_eq found still)
      | none =>
        have answered : other = _ := second.reference_of_none free declared found
        have old : one < (second.resolveAll arguments).2.nodes.size :=
          reached.grounded.instance_lt still
        exact absurd (same.symm.trans answered) (Nat.ne_of_lt old)
    · intro same
      rw [← same] at still
      show (second.resolve (.reference name arguments)).1 = one
      rw [second.reference_of_some free declared still]
  refine ⟨places, fun known => places.trans ⟨fun same => ?_, fun interned => ?_⟩, fun same graph trail
    met nesting => ?_⟩
  · -- A built argument would have a place that the remembered arguments cannot have.
    have old : second.graph.Holds (first.resolveAll arguments).1 := fun place inside =>
      second.reached.grounded.remembers place (Graph.mem_remembered.mpr
        (.inr (.inr (.inl ⟨_, mem_of_lookup_eq_some held, .inr inside⟩))))
    intro argument inside
    rcases known argument inside with interned | built
    · exact interned
    · obtain ⟨id, member, new⟩ :=
        resolveAll_built arguments second ((anyBuilt_iff symbols bound).mpr ⟨argument, inside, built⟩)
      rw [same] at member
      exact absurd (old id member) (Nat.not_lt.mpr new)
  · exact resolveAll_interned arguments first second ((allInterned_iff symbols bound).mpr interned)
      shallow (before.trans later)
  · rw [← same] at met
    exact reduceWithin_cycle _ nesting met

end Resolved

/-! ### Boxes and chains -/

/-- The first moment of a run. -/
def Moment.start (symbols : Symbols) : Moment symbols [] where
  graph := .initial
  scope := []
  levels := symbols.levels
  reached := .initial
  places _ member := absurd member List.not_mem_nil
  enough := symbols.room_lt_levels _
  names _ member := absurd member List.not_mem_nil

/-- The moment at which a reference that is resolved at the first moment has its node. -/
def Moment.entered (symbols : Symbols) (name : String) (arguments : List TypeExpr) :
    Moment symbols [] :=
  { Moment.start symbols with
    graph := ((Moment.start symbols).named name arguments).2
    reached := ((Moment.start symbols).named_remembered name arguments).2.2
    places := fun _ member => absurd member List.not_mem_nil
    enough := symbols.room_lt_levels _ }

/-- A declared type with a parameter. -/
def boxes : Symbols := .ofItems
  [.typeAlias "Box" [⟨"T", none⟩] (.object [.property "value" false (.reference "T" [])]) false]

/-- A box of strings that is referred to within itself has its own place. -/
theorem box_place : ((Moment.entered boxes "Box" [.keyword .string]).resolve
      (.reference "Box" [.keyword .string])).1 =
    ((Moment.start boxes).resolve (.reference "Box" [.keyword .string])).1 := by
  have places := same_reference_iff (Moment.start boxes)
    (Moment.entered boxes "Box" [.keyword .string]) (by decide) (by decide) (by decide) (.refl _)
  exact (places.2.1 fun argument inside => by
    rw [List.mem_singleton.mp inside]
    exact .inl rfl).mpr fun argument inside => by
      rw [List.mem_singleton.mp inside]
      rfl

/-- A declared type that refers to itself with a number. -/
def countedChain : Symbols := .ofItems
  [.typeAlias "F" [⟨"T", none⟩]
      (.object [.property "next" false (.reference "F" [.numberLiteral "1"])]) false,
    .value "f" (.reference "F" [.numberLiteral "1"]) true]

/-- The number has a new place each time, and so has the reference: the property of the type has another
place than the type itself, with the same text, and is no cycle inside of it. -/
theorem countedChain_unfolds :
    let final := graphAfter countedChain ["f"] .initial
    final.values.lookup "f" = some 2 ∧ final.property? 2 "next" = some ⟨"next", 4, false⟩ ∧
      final.text 2 = "F<1>" ∧ final.text 4 = "F<1>" ∧
      (reduceOn final 4 (Trail.empty.enter 2)).1.shape.kindName = "object" := by
  decide +kernel

end SwiftBindings.TypeGraph
