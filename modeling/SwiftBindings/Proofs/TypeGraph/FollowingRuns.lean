/-
**Declared types and values follow each other.**

Where a fresh run meets a declared type again, the longer run has it under the same arguments. Where
the fresh run resolves it, the longer run resolved it at some time, perhaps long before and at another
depth; behind what it remembers stands that resolution (`Graph.Finished.instance_run`), which the
fresh one follows. The levels of the two are unrelated, so the induction is on those of the fresh run
alone (`follows_ofLevels`).
-/

import SwiftBindings.Proofs.TypeGraph.FollowingNames

namespace SwiftBindings.TypeGraph

open Declared

/-! ### What is asked for is remembered -/

section Remembered

variable {symbols : Symbols} {watch : Watch} {levels : Nat} {name : String} {graph : Graph}

/-- A declared type that a watched name asks for is remembered. -/
theorem instance_remembered {arguments : List TypeId}
    (declared : (symbols.type? name).isSome = true) (enough : symbols.room graph < levels)
    (passed : (Clear.ofLevels symbols watch levels).instantiate true name arguments graph = true) :
    let result := (Deeper.ofLevels symbols levels).instantiate name arguments graph
    result.2.instances.lookup ⟨name, arguments⟩ = some result.1 := by
  intro result
  cases levels with
  | zero => exact absurd enough (Nat.not_lt_zero _)
  | succ levels =>
    have asked := instantiateWith_cases enough passed
    change InstanceCases symbols watch levels true ⟨name, arguments⟩ graph result at asked
    clear_value result
    cases asked with
    | remembered found => exact found
    | undeclared unknown _ =>
      rw [unknown] at declared
      cases declared
    | deep unwatched _ => cases unwatched
    | resolved _ run level before =>
      have further := Deeper.keeps_ofLevels symbols watch run.levels
      have grows := ((run.bound_advances further).trans (run.body_advances further)).grows
      refine grows.instances _ _ ?_
      rw [before, enterInstance_eq, List.lookup_cons_self]

/-- A value that a watched name asks for is remembered. -/
theorem value_remembered (declared : (symbols.value? name).isSome = true)
    (enough : symbols.room graph < levels)
    (passed : (Clear.ofLevels symbols watch levels).valueType true name graph = true) :
    let result := (Deeper.ofLevels symbols levels).valueType name graph
    result.2.values.lookup name = some result.1 := by
  intro result
  cases levels with
  | zero => exact absurd enough (Nat.not_lt_zero _)
  | succ levels =>
    have asked := valueTypeWith_cases enough passed
    change ValueCases symbols watch levels true name graph result at asked
    clear_value result
    cases asked with
    | remembered found => exact found
    | undeclared unknown _ =>
      rw [unknown] at declared
      cases declared
    | entered unwatched _ => cases unwatched
    | resolved _ _ run _ _ => exact List.lookup_cons_self

end Remembered

/-! ### Entering and leaving -/

section Mirrors

variable {images : Images} {graph final : Graph} (mirrors : graph.Mirrors images final)

include mirrors

/-- A graph in which a declared type was entered is mirrored, where the other remembers the type. -/
theorem Graph.Mirrors.enter {name : String} {arguments arguments' : List TypeId} {image : TypeId}
    (matching : List.Forall₂ images.Maps arguments arguments')
    (held : final.instances.lookup ⟨name, arguments'⟩ = some image) :
    (enterInstance ⟨name, arguments⟩ graph).2.Mirrors (images ++ [image]) final := by
  have added := mirrors.allocate .pending (graph.referenceText name arguments) image
    fun unsettled => absurd rfl unsettled
  refine { added with instances := fun declared first found => ?_ }
  rcases lookup_enterInstance found with ⟨rfl, rfl⟩ | before
  · exact ⟨arguments', image, matching.imp fun _ _ => Images.Maps.mono (List.prefix_append _ _),
      mirrors.maps_new image, held⟩
  · exact added.instances declared first before

/-- A graph in which a declared type was left is mirrored, where its structure matches that of its
image. -/
theorem Graph.Mirrors.leave {id image : TypeId} {kind : Kind} (maps : images.Maps id image)
    (unfinished : graph.HasKind id .pending) (matching : kind.Matches images.Maps (final.kind image)) :
    (leaveInstance id kind graph).2.Mirrors images final := by
  refine { mirrors with size := ?_, kinds := fun first second maps' known => ?_ }
  · rw [leaveInstance_eq, mirrors.size]
    exact (Array.size_modify ..).symm
  · by_cases same : first = id
    · subst same
      rw [(leaveInstance_hasKind unfinished).kind_eq, maps'.unique maps]
      exact matching
    · rw [leaveInstance_kind_of_ne same]
      refine mirrors.kinds first second maps' ?_
      rwa [Graph.isKnown, leaveInstance_node_of_ne same] at known

end Mirrors

/-! ### Declared types -/

section Level

variable {runs : TwoRuns} {levels levels' : Nat}

/-- Every level of the longer run follows the level of the fresh one. -/
def TwoRuns.FollowLevel (runs : TwoRuns) (levels : Nat) : Prop :=
  ∀ levels', Deeper.Follows runs levels levels' (.ofLevels runs.symbols levels)
    (.ofLevels runs.symbols levels') (.ofLevels runs.symbols .all levels)
    (.ofLevels runs.symbols runs.fresh.resolvedNames levels')

/-- **A declared type that is resolved** follows its resolution in the longer run. -/
theorem ends_instance (further : runs.FollowLevel levels) {images : Images} {graph : Graph}
    {name : String} {arguments arguments' : List TypeId} {image : TypeId}
    (matching : List.Forall₂ images.Maps arguments arguments')
    (mirrors : graph.Mirrors images runs.final)
    (held : runs.final.instances.lookup ⟨name, arguments'⟩ = some image)
    (run : InstanceRun runs.symbols .all ⟨name, arguments⟩ graph.nodes.size)
    (level : run.levels = levels) (before : run.before = (enterInstance ⟨name, arguments⟩ graph).2)
    (ended : (leaveInstance graph.nodes.size run.body.1 run.body.2).2.Continues runs.fresh) :
    ∃ more, images <+: more ∧
      (leaveInstance graph.nodes.size run.body.1 run.body.2).2.Mirrors more runs.final ∧
      Images.Maps more graph.nodes.size image := by
  subst level
  have keeps := Deeper.keeps_ofLevels runs.symbols .all run.levels
  have bound := run.bound_advances keeps
  have body := run.body_advances keeps
  have unfinished : run.body.2.HasKind graph.nodes.size .pending :=
    (bound.grows.trans body.grows).hasKind run.unfinished
  have continues : run.body.2.Continues runs.fresh := (leaveInstance_continues unfinished).trans ended
  -- the fresh run resolved the type, so the resolution of the longer run was watched
  have watched : runs.fresh.resolvedNames.types name = true := by
    have entered : run.before.instances.lookup ⟨name, arguments⟩ = some graph.nodes.size := by
      rw [before, enterInstance_eq, List.lookup_cons_self]
    have remembered := continues.instances _ _
      (body.grows.instances _ _ (bound.grows.instances _ _ entered))
    exact List.any_eq_true.mpr ⟨_, mem_of_lookup_eq_some remembered, beq_self_eq_true _⟩
  obtain ⟨run', after, has⟩ := runs.finished.instance_run held
  have declares : run'.definition = run.definition :=
    Option.some.inj (run'.declares.symm.trans run.declares)
  have keeps' := Deeper.keeps_ofLevels runs.symbols runs.fresh.resolvedNames run'.levels
  have enough' := run'.bound_enough keeps'
  have unfinished' := (run'.bound_advances keeps').grows.hasKind run'.unfinished
  have continues' := (run'.body_advances keeps').grows.continues.trans after
  have clear' := (Bool.and_eq_true_iff.mp run'.clear).1
  have bodyClear' := run'.bound_clear
  rw [InstanceRun.body, declares] at after has
  have same : run'.bound = bindParameters runs.symbols (.ofLevels runs.symbols run'.levels) []
      run.definition.parameters arguments' run'.before := by
    rw [InstanceRun.bound, declares]
  rw [declares, watched] at clear' bodyClear'
  -- the node of the type is mirrored first, then the parameters and the body follow
  have entered : run.before.Mirrors (images ++ [image]) runs.final := by
    rw [before]
    exact mirrors.enter matching held
  have given := matching.imp fun _ _ => Images.Maps.mono (List.prefix_append images [image])
  obtain ⟨more, extended, boundMirrors, scopes⟩ :=
    (follows_bindParameters (further run'.levels) [] [] run.definition.parameters arguments
      arguments').ends _ run.before run'.before ⟨.nil, given⟩ entered run.enough run'.enough
      (Bool.and_eq_true_iff.mp run.clear).1 clear' (body.grows.continues.trans continues)
      (same ▸ continues')
  rw [← same] at scopes
  obtain ⟨most, extended', bodyMirrors, kinds⟩ :=
    ends_bodyKind (further run'.levels) run.bound.1 run'.bound.1 run.definition.body scopes
      boundMirrors (run.bound_enough keeps) enough' run.bound_clear bodyClear'
      (bound.grows.hasKind run.unfinished).kind_eq unfinished'.kind_eq continues after
  have maps : Images.Maps most graph.nodes.size image :=
    ((mirrors.maps_new image).mono extended).mono extended'
  refine ⟨most, ((List.prefix_append images [image]).trans extended).trans extended', ?_, maps⟩
  refine bodyMirrors.leave maps unfinished ?_
  rw [has.kind_eq]
  exact kinds

/-- Asking for a declared type follows asking for it in the longer run. -/
theorem follows_instantiate (further : runs.FollowLevel levels) (name : String)
    (arguments arguments' : List TypeId) (declared : (runs.symbols.type? name).isSome = true) :
    Follows runs (levels + 1) levels'
      (fun images => List.Forall₂ images.Maps arguments arguments')
      ((Clear.ofLevels runs.symbols .all (levels + 1)).instantiate true name arguments)
      ((Deeper.ofLevels runs.symbols (levels + 1)).instantiate name arguments)
      ((Clear.ofLevels runs.symbols runs.fresh.resolvedNames levels').instantiate true name arguments')
      ((Deeper.ofLevels runs.symbols levels').instantiate name arguments') Images.Maps where
  keeps := (Deeper.keeps_ofLevels _ _ _).instantiate true name arguments
  keeps' := (Deeper.keeps_ofLevels _ _ _).instantiate true name arguments'
  ends images graph other matching mirrors enough enough' passed passed' ended ended' := by
    have held := ended'.instances _ _ (instance_remembered declared enough' passed')
    generalize (Deeper.ofLevels runs.symbols levels').instantiate name arguments' other = result'
      at held ⊢
    have asked := instantiateWith_cases enough passed
    change InstanceCases _ _ _ _ _ _
      ((Deeper.ofLevels runs.symbols (levels + 1)).instantiate name arguments graph) at asked
    generalize (Deeper.ofLevels runs.symbols (levels + 1)).instantiate name arguments graph = result
      at asked ended ⊢
    cases asked with
    | remembered found =>
      obtain ⟨others, second, matching', maps, held'⟩ := mirrors.instances _ _ found
      cases Images.forall₂_unique matching matching'
      cases held.symm.trans held'
      exact ⟨images, List.prefix_rfl, mirrors, maps⟩
    | undeclared unknown _ =>
      rw [unknown] at declared
      cases declared
    | deep unwatched _ => cases unwatched
    | resolved _ run level before =>
      exact ends_instance further matching mirrors held run level before ended

/-! ### Values -/

/-- **A value that is resolved** follows its resolution in the longer run. -/
theorem ends_value (further : runs.FollowLevel levels) {images : Images} {graph : Graph}
    {name : String} {image : TypeId} (mirrors : graph.Mirrors images runs.final)
    (held : runs.final.values.lookup name = some image) (free : graph.values.lookup name = none)
    (run : ValueRun runs.symbols .all name) (level : run.levels = levels)
    (before : run.before = { graph with resolving := name :: graph.resolving })
    (ended : (run.resolved.2.leaveValue name run.resolved.1).Continues runs.fresh) :
    ∃ more, images <+: more ∧
      (run.resolved.2.leaveValue name run.resolved.1).Mirrors more runs.final ∧
      Images.Maps more run.resolved.1 image := by
  subst level
  have keeps := Deeper.keeps_ofLevels runs.symbols .all run.levels
  have continues := (leaveValue_continues run.resolved.1 (run.free keeps free before)).trans ended
  -- the fresh run resolved the value, so the resolution of the longer run was watched
  have watched : runs.fresh.resolvedNames.values name = true := by
    show (runs.fresh.values.lookup name).isSome = true
    rw [ended.values name _ List.lookup_cons_self]
    rfl
  obtain ⟨run', after, rfl⟩ := runs.finished.recorded.values name image held
  have declares : run'.type = run.type := Option.some.inj (run'.declares.symm.trans run.declares)
  have clear' := run'.clear
  rw [watched, declares] at clear'
  rw [ValueRun.resolved, declares] at after held
  have entered : run.before.Mirrors images runs.final := by
    rw [before]
    exact { mirrors with }
  obtain ⟨more, extended, mirrors, maps⟩ := (follows_resolve (further run'.levels) [] [] run.type).ends
    images run.before run'.before .nil entered run.enough run'.enough run.clear clear' continues after
  rw [ValueRun.resolved, ValueRun.resolved, declares]
  refine ⟨more, extended, { mirrors with values := fun other first found => ?_ }, maps⟩
  rcases lookup_cons_cases found with ⟨rfl, rfl⟩ | before
  · exact ⟨_, maps, held⟩
  · exact mirrors.values other first before

/-- Asking for the type of a value follows asking for it in the longer run. -/
theorem follows_valueType (further : runs.FollowLevel levels) (name : String) :
    Follows runs (levels + 1) levels' (fun _ => True)
      ((Clear.ofLevels runs.symbols .all (levels + 1)).valueType true name)
      ((Deeper.ofLevels runs.symbols (levels + 1)).valueType name)
      ((Clear.ofLevels runs.symbols runs.fresh.resolvedNames levels').valueType true name)
      ((Deeper.ofLevels runs.symbols levels').valueType name) Images.Maps where
  keeps := (Deeper.keeps_ofLevels _ _ _).valueType true name
  keeps' := (Deeper.keeps_ofLevels _ _ _).valueType true name
  ends images graph other _ mirrors enough enough' passed passed' ended ended' := by
    have held : (runs.symbols.value? name).isSome = true → _ := fun declared =>
      ended'.values _ _ (value_remembered declared enough' passed')
    have asked := valueTypeWith_cases enough passed
    change ValueCases _ _ _ _ _ _
      ((Deeper.ofLevels runs.symbols (levels + 1)).valueType name graph) at asked
    generalize (Deeper.ofLevels runs.symbols (levels + 1)).valueType name graph = result
      at asked ended ⊢
    cases asked with
    | remembered found =>
      obtain ⟨second, maps, held'⟩ := mirrors.values _ _ found
      obtain ⟨run, _, _⟩ := runs.finished.recorded.values name second held'
      have declared : (runs.symbols.value? name).isSome = true := by
        rw [run.declares]
        rfl
      cases (held declared).symm.trans held'
      exact ⟨images, List.prefix_rfl, mirrors, maps⟩
    | undeclared unknown text =>
      cases levels' with
      | zero => exact absurd enough' (Nat.not_lt_zero _)
      | succ levels' =>
        have asked' := valueTypeWith_cases enough' passed'
        change ValueCases _ _ _ _ _ _
          ((Deeper.ofLevels runs.symbols (levels' + 1)).valueType name other) at asked'
        generalize (Deeper.ofLevels runs.symbols (levels' + 1)).valueType name other = result'
          at asked' ended' ⊢
        cases asked' with
        | remembered found' =>
          obtain ⟨run, _, _⟩ := runs.finished.recorded.values name _ (ended'.values _ _ found')
          cases run.declares.symm.trans unknown
        | undeclared _ text' =>
          have follows : Follows runs (levels + 1) (levels' + 1) (fun _ => True) .pass
              (unresolvedType text) .pass (unresolvedType text') Images.Maps := follows_unresolvedType
          exact follows.ends images graph other trivial mirrors enough enough' rfl rfl ended ended'
        | entered unwatched _ => cases unwatched
        | resolved _ _ run _ _ => cases run.declares.symm.trans unknown
    | entered unwatched _ => cases unwatched
    | resolved free _ run level before =>
      have declared : (runs.symbols.value? name).isSome = true := by
        rw [run.declares]
        rfl
      exact ends_value further mirrors (held declared) free run level before ended

/-! ### All levels -/

/-- **Every level of the longer run follows every level of the fresh one.** -/
theorem follows_ofLevels (runs : TwoRuns) (levels : Nat) : runs.FollowLevel levels := by
  induction levels with
  | zero =>
    intro levels'
    have keeps := Deeper.keeps_ofLevels runs.symbols .all 0
    have keeps' := Deeper.keeps_ofLevels runs.symbols runs.fresh.resolvedNames levels'
    exact
    { keeps := keeps
      keeps' := keeps'
      instantiate := fun name arguments arguments' _ =>
        { keeps := keeps.instantiate true name arguments
          keeps' := keeps'.instantiate true name arguments'
          ends := fun _ _ _ _ _ enough => absurd enough (Nat.not_lt_zero _) }
      valueType := fun name =>
        { keeps := keeps.valueType true name
          keeps' := keeps'.valueType true name
          ends := fun _ _ _ _ _ enough => absurd enough (Nat.not_lt_zero _) } }
  | succ levels ih =>
    intro levels'
    exact
    { keeps := Deeper.keeps_ofLevels _ _ _
      keeps' := Deeper.keeps_ofLevels _ _ _
      instantiate := follows_instantiate ih
      valueType := follows_valueType ih }

end Level

end SwiftBindings.TypeGraph
