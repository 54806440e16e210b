/-
**One run follows another.**

A fresh run and a longer one resolve the same declarations. `Follows` relates a step of the fresh run
to a step of the longer one: where the graph of the fresh run is mirrored in the last graph of the
longer run, and neither step is cut short, the graph after the fresh step is mirrored too, under more
images, and the results are related. The longer run may have resolved a declared type long before, or
be in the midst of it; so the images always lie in its last graph.

The relation is kept by the composition of steps (`Follows.bind`), by what looks at types that both
sides know (`Follows.look`), and by adding nodes that match (`follows_allocate`). So it holds of all
types of the framework and of types as written.
-/

import SwiftBindings.Proofs.TypeGraph.Mirror

set_option linter.unusedSectionVars false

namespace SwiftBindings.TypeGraph

open Declared

/-- The last graphs of two runs over the same declarations. -/
structure TwoRuns where
  /-- The declared names. -/
  symbols : Symbols
  /-- The last graph of the fresh run. -/
  fresh : Graph
  /-- The last graph of the longer run. -/
  final : Graph
  finished : final.Finished symbols fresh.resolvedNames

section Follows

variable {α β γ δ : Type}

/-- The results of two steps, with the graph of the fresh one mirrored under more images. -/
def TwoRuns.Ends (runs : TwoRuns) (images : Images) (after : Images → α → β → Prop)
    (result : α × Graph) (result' : β × Graph) : Prop :=
  ∃ more, images <+: more ∧ result.2.Mirrors more runs.final ∧ after more result.1 result'.1

/-- The step of the fresh run has a counterpart in the step of the longer one. -/
structure Follows (runs : TwoRuns) (levels levels' : Nat) (before : Images → Prop) (check : Check)
    (step : Building α) (check' : Check) (step' : Building β) (after : Images → α → β → Prop) :
    Prop where
  keeps : Keeps runs.symbols .all levels check step
  keeps' : Keeps runs.symbols runs.fresh.resolvedNames levels' check' step'
  ends : ∀ images graph other, before images → graph.Mirrors images runs.final →
    runs.symbols.room graph < levels → runs.symbols.room other < levels' →
    check graph = true → check' other = true →
    (step graph).2.Continues runs.fresh → (step' other).2.Continues runs.final →
    runs.Ends images after (step graph) (step' other)

variable {runs : TwoRuns} {levels levels' : Nat} {before : Images → Prop}
  {check check' : Check} {step : Building α} {step' : Building β} {after : Images → α → β → Prop}

theorem Follows.pure {value : α} {value' : β} (related : ∀ images, before images →
    after images value value') :
    Follows runs levels levels' before check (pure value : Building α) check'
      (pure value' : Building β) after where
  keeps := .pure value
  keeps' := .pure value'
  ends images _ _ holds mirrors _ _ _ _ _ _ :=
    ⟨images, List.prefix_rfl, mirrors, related images holds⟩

/-- What holds before may be assumed. -/
theorem Follows.assume {fact : Prop} (implied : ∀ images, before images → fact)
    (keeps : Keeps runs.symbols .all levels check step)
    (keeps' : Keeps runs.symbols runs.fresh.resolvedNames levels' check' step')
    (follows : fact → Follows runs levels levels' before check step check' step' after) :
    Follows runs levels levels' before check step check' step' after where
  keeps := keeps
  keeps' := keeps'
  ends images graph other holds := (follows (implied images holds)).ends images graph other holds

/-- Steps that choose alike. -/
theorem Follows.ite {condition condition' : Prop} [Decidable condition] [Decidable condition']
    {yes no : Building α} {yes' no' : Building β}
    (same : ∀ images, before images → (condition ↔ condition'))
    (follows : Follows runs levels levels' before check yes check' yes' after)
    (otherwise : Follows runs levels levels' before check no check' no' after) :
    Follows runs levels levels' before check (if condition then yes else no) check'
      (if condition' then yes' else no') after := by
  refine .assume same (.ite follows.keeps otherwise.keeps) (.ite follows.keeps' otherwise.keeps')
    fun same => ?_
  by_cases chosen : condition
  · rw [if_pos chosen, if_pos (same.mp chosen)]
    exact follows
  · rw [if_neg chosen, if_neg fun chosen' => chosen (same.mpr chosen')]
    exact otherwise

/-- Less may hold after, and more before. -/
theorem Follows.imp {stronger : Images → Prop} {weaker : Images → α → β → Prop}
    (follows : Follows runs levels levels' before check step check' step' after)
    (implied : ∀ images, stronger images → before images)
    (implies : ∀ images value value', after images value value' → weaker images value value') :
    Follows runs levels levels' stronger check step check' step' weaker where
  keeps := follows.keeps
  keeps' := follows.keeps'
  ends images graph other holds mirrors enough enough' passed passed' ended ended' := by
    obtain ⟨more, extended, mirrors, related⟩ := follows.ends images graph other
      (implied images holds) mirrors enough enough' passed passed' ended ended'
    exact ⟨more, extended, mirrors, implies _ _ _ related⟩

theorem Follows.weaken {stronger : Images → Prop}
    (follows : Follows runs levels levels' before check step check' step' after)
    (implied : ∀ images, stronger images → before images) :
    Follows runs levels levels' stronger check step check' step' after :=
  follows.imp implied fun _ _ _ related => related

theorem isNone_eq_of_rel {relate : α → β → Prop} {first : Option α} {second : Option β}
    (matching : Option.Rel relate first second) : first.isNone = second.isNone := by
  cases matching <;> rfl

/-- Steps that go on with what was found, where both sides found something or neither did. -/
theorem Follows.option {ι κ : Type} {relate : Images → ι → κ → Prop}
    {test : Option ι → Check} {rest : Option ι → Building α} {test' : Option κ → Check}
    {rest' : Option κ → Building β} (found : Option ι) (found' : Option κ)
    (related : ∀ images, before images → Option.Rel (relate images) found found')
    (keeps : ∀ found, Keeps runs.symbols .all levels (test found) (rest found))
    (keeps' : ∀ found', Keeps runs.symbols runs.fresh.resolvedNames levels' (test' found')
      (rest' found'))
    (absent : Follows runs levels levels' before (test none) (rest none) (test' none) (rest' none)
      after)
    (present : ∀ value value', Follows runs levels levels'
      (fun images => before images ∧ relate images value value') (test (some value))
      (rest (some value)) (test' (some value')) (rest' (some value')) after) :
    Follows runs levels levels' before (test found) (rest found) (test' found') (rest' found')
      after := by
  refine .assume (fun images holds => isNone_eq_of_rel (related images holds)) (keeps found)
    (keeps' found') fun same => ?_
  cases found with
  | none =>
    cases found' with
    | none => exact absent
    | some _ => cases same
  | some value =>
    cases found' with
    | none => cases same
    | some value' =>
      exact (present value value').weaken fun images holds =>
        ⟨holds, Option.rel_some_some.mp (related images holds)⟩

/-- Further tests do no harm. -/
theorem Follows.and (follows : Follows runs levels levels' before check step check' step' after)
    (first first' : Check) :
    Follows runs levels levels' before (fun graph => first graph && check graph) step
      (fun graph => first' graph && check' graph) step' after where
  keeps := follows.keeps.and
  keeps' := follows.keeps'.and
  ends images graph other holds mirrors enough enough' passed passed' :=
    follows.ends images graph other holds mirrors enough enough'
      (Bool.and_eq_true_iff.mp passed).2 (Bool.and_eq_true_iff.mp passed').2

/-- **Steps that follow each other are composed of such steps.** -/
theorem Follows.bind [Stable before] {next : α → Check} {rest : α → Building γ}
    {next' : β → Check} {rest' : β → Building δ} {last : Images → γ → δ → Prop}
    (first : Follows runs levels levels' before check step check' step' after)
    (follows : ∀ value value', Follows runs levels levels'
      (fun images => before images ∧ after images value value') (next value) (rest value)
      (next' value') (rest' value') last) :
    Follows runs levels levels' before (check.andThen step next) (step >>= rest)
      (check'.andThen step' next') (step' >>= rest') last where
  keeps := first.keeps.bind fun value => (follows value (step' .initial).1).keeps
  keeps' := first.keeps'.bind fun value' => (follows (step .initial).1 value').keeps'
  ends images graph other holds mirrors enough enough' passed passed' ended ended' := by
    obtain ⟨passedFirst, passedNext⟩ := Bool.and_eq_true_iff.mp passed
    obtain ⟨passedFirst', passedNext'⟩ := Bool.and_eq_true_iff.mp passed'
    have grows := (first.keeps graph enough passedFirst).grows
    have grows' := (first.keeps' other enough' passedFirst').grows
    have still : runs.symbols.room (step graph).2 < levels := by
      rw [grows.room_eq]
      exact enough
    have still' : runs.symbols.room (step' other).2 < levels' := by
      rw [grows'.room_eq]
      exact enough'
    have second := follows (step graph).1 (step' other).1
    have continues := (second.keeps _ still passedNext).grows.continues.trans ended
    have continues' := (second.keeps' _ still' passedNext').grows.continues.trans ended'
    obtain ⟨more, extended, mirrors, related⟩ := first.ends images graph other holds mirrors enough
      enough' passedFirst passedFirst' continues continues'
    obtain ⟨most, extended', mirrors, related⟩ := second.ends more _ _
      ⟨Stable.kept extended holds, related⟩ mirrors still still' passedNext passedNext' ended ended'
    exact ⟨most, extended.trans extended', mirrors, related⟩

/-- Steps without tests of their own in front of the rest. -/
theorem Follows.andThen [Stable before] {rest : α → Building γ} {rest' : β → Building δ}
    {last : Images → γ → δ → Prop}
    (first : Follows runs levels levels' before check step check' step' after)
    (follows : ∀ value value', Follows runs levels levels'
      (fun images => before images ∧ after images value value') .pass (rest value) .pass
      (rest' value') last) :
    Follows runs levels levels' before check (step >>= rest) check' (step' >>= rest') last := by
  have both := first.bind follows
  rwa [Check.andThen_pass, Check.andThen_pass] at both

/-- Steps that read their graphs, and what both see. -/
theorem Follows.look {rest : Graph → Building γ} {rest' : Graph → Building δ}
    {last : Images → γ → δ → Prop} (seen : Images → Graph → Graph → Prop)
    (sees : ∀ images graph other, before images → graph.Mirrors images runs.final →
      other.Continues runs.final → check graph = true → check' other = true →
      seen images graph other)
    (follows : ∀ graph other, Follows runs levels levels'
      (fun images => before images ∧ seen images graph other) check (rest graph) check'
      (rest' other) last) :
    Follows runs levels levels' before check (get >>= rest) check' (get >>= rest') last where
  keeps := .look fun graph => (follows graph .initial).keeps
  keeps' := .look fun other => (follows .initial other).keeps'
  ends images graph other holds mirrors enough enough' passed passed' ended ended' := by
    have continues : other.Continues runs.final :=
      ((follows graph other).keeps' other enough' passed').grows.continues.trans ended'
    exact (follows graph other).ends images graph other
      ⟨holds, sees images graph other holds mirrors continues passed passed'⟩ mirrors enough enough'
      passed passed' ended ended'

/-- Steps that read their graphs, where what is read decides on the tests of the rest. -/
theorem Follows.lookAt {rest : Graph → Building γ} {rest' : Graph → Building δ}
    {last : Images → γ → δ → Prop} (test test' : Graph → Check) (fact : Graph → Graph → Prop)
    (seen : Images → Graph → Graph → Prop) (keeps : Keeps runs.symbols .all levels check (get >>= rest))
    (keeps' : Keeps runs.symbols runs.fresh.resolvedNames levels' check' (get >>= rest'))
    (sees : ∀ images graph other, before images → graph.Mirrors images runs.final →
      other.Continues runs.final → check graph = true → check' other = true →
      fact graph other ∧ seen images graph other ∧ test graph graph = true ∧ test' other other = true)
    (follows : ∀ graph other, fact graph other → Follows runs levels levels'
      (fun images => before images ∧ seen images graph other) (test graph) (rest graph) (test' other)
      (rest' other) last) :
    Follows runs levels levels' before check (get >>= rest) check' (get >>= rest') last where
  keeps := keeps
  keeps' := keeps'
  ends images graph other holds mirrors enough enough' passed passed' ended ended' := by
    have continues : other.Continues runs.final :=
      (keeps' other enough' passed').grows.continues.trans ended'
    obtain ⟨agrees, sight, passed, passed'⟩ :=
      sees images graph other holds mirrors continues passed passed'
    exact (follows graph other agrees).ends images graph other ⟨holds, sight⟩ mirrors enough enough'
      passed passed' ended ended'

/-- Steps that read their graphs only for texts. -/
theorem Follows.read {rest : Graph → Building γ} {rest' : Graph → Building δ}
    {last : Images → γ → δ → Prop}
    (follows : ∀ graph other, Follows runs levels levels' before check (rest graph) check'
      (rest' other) last) :
    Follows runs levels levels' before check (get >>= rest) check' (get >>= rest') last :=
  .look (fun _ _ _ => True) (fun _ _ _ _ _ _ _ _ => trivial) fun graph other =>
    (follows graph other).weaken fun _ both => both.1

end Follows

/-! ### Nodes -/

section Nodes

variable {runs : TwoRuns} {levels levels' : Nat} {before : Images → Prop} {check check' : Check}

/-- A graph with a new node is mirrored where the structure of the node's image matches. -/
theorem Graph.Mirrors.allocate {images : Images} {graph final : Graph}
    (mirrors : graph.Mirrors images final) (kind : Kind) (text : String) (image : TypeId)
    (matching : kind ≠ .pending → kind.Matches images.Maps (final.kind image)) :
    (allocate kind text graph).2.Mirrors (images ++ [image]) final where
  size := by
    show (images ++ [image]).length = (graph.nodes.push ⟨kind, text⟩).size
    rw [List.length_append, List.length_singleton, Array.size_push, mirrors.size]
  method := mirrors.method.mono (List.prefix_append _ _)
  kinds first second maps known := by
    have extended : images <+: images ++ [image] := List.prefix_append _ _
    by_cases new : first = graph.nodes.size
    · subst new
      have added : (images ++ [image])[images.length]? = some image := by
        rw [List.getElem?_append_right (Nat.le_refl _), Nat.sub_self, List.getElem?_cons_zero]
      rw [mirrors.size] at added
      have same : second = image := maps.unique added
      have has := (allocate_hasKind kind text graph).kind_eq
      have settled : kind ≠ .pending := by
        rw [← has]
        exact (Graph.isKnown_iff.mp known).2
      rw [same]
      show Kind.Matches _ ((TypeGraph.allocate kind text graph).2.kind graph.nodes.size) _
      rw [show (TypeGraph.allocate kind text graph).2.kind graph.nodes.size = kind from has]
      exact (matching settled).mono fun _ _ => Images.Maps.mono extended
    · have inside : first < images.length := by
        have bound := (List.getElem?_eq_some_iff.mp maps).1
        rw [List.length_append, List.length_singleton] at bound
        rw [mirrors.size] at bound ⊢
        exact Nat.lt_of_le_of_ne (Nat.le_of_lt_succ bound) new
      have old : images.Maps first second := by
        rw [Images.Maps, ← List.getElem?_append_left inside]
        exact maps
      have same : (TypeGraph.allocate kind text graph).2.kind first = graph.kind first := by
        rw [kind_allocate, if_neg new]
      have before : graph.isKnown first = true := by
        rw [mirrors.size] at inside
        obtain ⟨has, settled⟩ := Graph.isKnown_iff.mp known
        rw [same] at settled
        refine Graph.isKnown_iff.mpr ⟨?_, settled⟩
        have found := Array.getElem?_eq_getElem inside
        rw [Graph.HasKind, Graph.kind, found]
        exact ⟨_, rfl⟩
      rw [same]
      exact (mirrors.kinds first second old before).mono fun _ _ => Images.Maps.mono extended
  keywords keyword first found := by
    obtain ⟨second, maps, held⟩ := mirrors.keywords keyword first found
    exact ⟨second, maps.mono (List.prefix_append _ _), held⟩
  literals value first found := by
    obtain ⟨second, maps, held⟩ := mirrors.literals value first found
    exact ⟨second, maps.mono (List.prefix_append _ _), held⟩
  instances declared first found := by
    obtain ⟨arguments, second, related, maps, held⟩ := mirrors.instances declared first found
    exact ⟨arguments, second, related.imp fun _ _ => Images.Maps.mono (List.prefix_append _ _),
      maps.mono (List.prefix_append _ _), held⟩
  values name first found := by
    obtain ⟨second, maps, held⟩ := mirrors.values name first found
    exact ⟨second, maps.mono (List.prefix_append _ _), held⟩

/-- The new place has the new image. -/
theorem Graph.Mirrors.maps_new {images : Images} {graph final : Graph}
    (mirrors : graph.Mirrors images final) (image : TypeId) :
    Images.Maps (images ++ [image]) graph.nodes.size image := by
  rw [Images.Maps, ← mirrors.size, List.getElem?_append_right (Nat.le_refl _), Nat.sub_self,
    List.getElem?_cons_zero]

/-- Nodes of matching structure. -/
theorem follows_allocate {kind kind' : Kind} {text text' : String}
    (matching : ∀ images, before images → kind.Matches images.Maps kind') (known : kind ≠ .pending)
    (known' : kind' ≠ .pending) :
    Follows runs levels levels' before check (allocate kind text) check' (allocate kind' text')
      Images.Maps where
  keeps := keeps_allocate known text
  keeps' := keeps_allocate known' text'
  ends images graph other holds mirrors _ _ _ _ _ ended' := by
    have has := ended'.hasKind (allocate_hasKind kind' text' other) known'
    refine ⟨images ++ [other.nodes.size], List.prefix_append _ _, mirrors.allocate kind text _ ?_,
      mirrors.maps_new _⟩
    intro _
    rw [show runs.final.kind other.nodes.size = kind' from has.kind_eq]
    exact matching images holds

end Nodes

end SwiftBindings.TypeGraph
