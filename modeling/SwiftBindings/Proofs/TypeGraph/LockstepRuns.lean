/-
**Resolution within an alias.**

A type that mentions neither the alias nor the two values is resolved alike on its own and within the
alias (`alike_resolve`), if declared names are one level further in (`Deeper.Alike`). By induction on
levels they are (`Deeper.alike_ofLevels`): both runs enter the same declared types and values, so they are
cut short at the same places.
-/

import SwiftBindings.Proofs.TypeGraph.Lockstep

set_option linter.unusedSectionVars false

namespace SwiftBindings.TypeGraph

open Declared

/-! ### Names -/

/-- The scope with its types at their new places. -/
def Scope.rename (place : TypeId → TypeId) (scope : Scope) : Scope :=
  scope.map (Prod.map id place)

theorem Scope.lookup_rename (place : TypeId → TypeId) (scope : Scope) (name : String) :
    List.lookup name (scope.rename place) = (List.lookup name scope).map place :=
  lookup_map_of_injective Function.injective_id place scope name

/-- Declared names other than the alias and the two values are alike one level further in. -/
structure Deeper.Alike (aliasing : Aliasing) (depth : Nat) (within : List String)
    (deeper deeper' : Deeper) : Prop where
  instantiate : ∀ name arguments, name ≠ aliasing.name →
    aliasing.Alike depth within moved (deeper.instantiate name arguments)
      (deeper'.instantiate name (arguments.map moved))
  valueType : ∀ name, name ≠ aliasing.direct → name ≠ aliasing.named →
    aliasing.Alike depth within moved (deeper.valueType name) (deeper'.valueType name)

section Types

variable {aliasing : Aliasing} {depth : Nat} {within : List String} {deeper deeper' : Deeper}
  (further : Deeper.Alike aliasing depth within deeper deeper')

include further

theorem alike_namedType {name : String} (other : name ≠ aliasing.name) (arguments : List TypeId) :
    aliasing.Alike depth within moved (namedType aliasing.symbols deeper name arguments)
      (namedType aliasing.symbols deeper' name (arguments.map moved)) := by
  rw [namedType, namedType]
  split
  · exact further.instantiate name arguments other
  · exact alike_providedType name arguments

theorem alike_queriedType {name : String}
    (free : aliasing.own.Disjoint [.value ((segments name).headD "")]) :
    aliasing.Alike depth within moved (queriedType deeper name) (queriedType deeper' name) := by
  obtain ⟨direct, named⟩ := aliasing.ne_values free
  refine .bind (further.valueType _ direct named) fun id => .look fun graph other renames => ?_
  rw [follow?_rename renames (renames.kind id) _ rfl]
  cases graph.follow? id (segments name).tail with
  | some found => exact .pure rfl
  | none => exact alike_opaqueNode _

/-! ### Types as written -/

variable {scope : Scope} {bound : List String} (inScope : bound ⊆ scope.map Prod.fst)

include inScope

mutual

/-- **A type that mentions neither the alias nor the values** is resolved alike. -/
theorem alike_resolve : ∀ type : TypeExpr, aliasing.own.Disjoint (mentions bound type) →
    aliasing.Alike depth within moved (resolve aliasing.symbols deeper scope type)
      (resolve aliasing.symbols deeper' (scope.rename moved) type)
  | .keyword keyword, _ => alike_keywordType keyword
  | .stringLiteral value, _ => alike_stringLiteralType value
  | .numberLiteral text, _ => alike_allocate (.numberLiteral text) text
  | .booleanLiteral value, _ => alike_allocate (.booleanLiteral value) _
  | .reference name arguments, free => by
    rw [mentions, List.disjoint_append_right] at free
    rw [resolve, resolve, Scope.lookup_rename]
    obtain ⟨own, others⟩ := free
    cases found : if arguments.isEmpty then scope.lookup name else none with
    | some id =>
      have found' : (if arguments.isEmpty then (scope.lookup name).map moved else none) =
          some (moved id) := by
        split at found
        · rename_i empty
          rw [if_pos empty, found]
          rfl
        · cases found
      rw [found']
      exact .pure rfl
    | none =>
      have found' : (if arguments.isEmpty then (scope.lookup name).map moved else none) = none := by
        split at found
        · rename_i empty
          rw [if_pos empty, found]
          rfl
        · rename_i some
          rw [if_neg some]
      have unbound : ¬(arguments.isEmpty && bound.contains name) = true := by
        intro both
        obtain ⟨empty, held⟩ := Bool.and_eq_true_iff.mp both
        rw [if_pos empty] at found
        obtain ⟨entry, member, named⟩ := List.mem_map.mp (inScope (List.contains_iff_mem.mp held))
        have missing := List.lookup_eq_none_iff.mp found entry member
        simp [named] at missing
      rw [if_neg unbound] at own
      have other : name ≠ aliasing.name := aliasing.ne_name own
      rw [found']
      exact .bind (alike_resolveAll arguments others) fun ids => alike_namedType further other ids
  | .array element, free => by
    rw [mentions] at free
    rw [resolve, resolve]
    exact .bind (alike_resolve element free) fun id => alike_arrayType id
  | .tuple elements, free => by
    rw [mentions] at free
    rw [resolve, resolve]
    exact .bind (alike_resolveAll elements free) fun ids => alike_tupleType ids
  | .union members, free => by
    rw [mentions] at free
    rw [resolve, resolve]
    exact .bind (alike_resolveAlternatives members free) fun ids => alike_unionType ids
  | .intersection members, free => by
    rw [mentions] at free
    rw [resolve, resolve]
    exact .bind (alike_resolveAll members free) fun ids => alike_intersectionType ids
  | .object members, free => by
    rw [mentions] at free
    rw [resolve, resolve]
    exact .bind (alike_resolveMembers ⟨[], none⟩ members free) fun shape => alike_objectType shape
  | .query name, free => by
    rw [mentions] at free
    rw [resolve, resolve]
    exact alike_queriedType further free
  | .opaqueText text, _ => alike_opaqueNode text

theorem alike_resolveAll : ∀ types : List TypeExpr, aliasing.own.Disjoint (mentionsOfAll bound types) →
    aliasing.Alike depth within (List.map moved) (resolveAll aliasing.symbols deeper scope types)
      (resolveAll aliasing.symbols deeper' (scope.rename moved) types)
  | [], _ => .pure rfl
  | type :: rest, free => by
    rw [mentionsOfAll, List.disjoint_append_right] at free
    rw [resolveAll, resolveAll]
    exact .bind (alike_resolve type free.1) fun id =>
      .bind (alike_resolveAll rest free.2) fun ids => .pure rfl

theorem alike_resolveAlternatives : ∀ types : List TypeExpr,
    aliasing.own.Disjoint (mentionsOfAll bound types) →
    aliasing.Alike depth within (List.map moved)
      (resolveAlternatives aliasing.symbols deeper scope types)
      (resolveAlternatives aliasing.symbols deeper' (scope.rename moved) types)
  | [], _ => .pure rfl
  | type :: rest, free => by
    rw [mentionsOfAll, List.disjoint_append_right] at free
    rw [resolveAlternatives, resolveAlternatives]
    refine .bind (alike_resolve type free.1) fun id => .look fun graph other renames => ?_
    rw [alternatives_rename (renames.kind id) rfl]
    exact .bind (alike_resolveAlternatives rest free.2) fun ids => .pure (List.map_append.symm)

theorem alike_resolveMembers : ∀ (shape : ObjectShape) (members : List Member),
    aliasing.own.Disjoint (mentionsOfMembers bound members) →
    aliasing.Alike depth within (ObjectShape.rename moved)
      (resolveMembers aliasing.symbols deeper scope shape members)
      (resolveMembers aliasing.symbols deeper' (scope.rename moved) (shape.rename moved) members)
  | shape, [], _ => .pure rfl
  | shape, .property name optional type :: rest, free => by
    rw [mentionsOfMembers, List.disjoint_append_right] at free
    rw [resolveMembers, resolveMembers]
    refine .bind (alike_resolve type free.1) fun id => ?_
    have added := alike_resolveMembers
      { shape with properties := upsertProperty shape.properties ⟨name, id, optional⟩ } rest free.2
    rw [ObjectShape.rename, ← upsertProperty_rename] at added
    exact added
  | shape, .index key value :: rest, free => by
    rw [mentionsOfMembers, List.disjoint_append_right, List.disjoint_append_right] at free
    obtain ⟨ofKey, ofValue, ofRest⟩ := free
    rw [resolveMembers, resolveMembers]
    refine .bind (alike_resolve key ofKey) fun keyId => .bind (alike_resolve value ofValue)
      fun valueId => .look fun graph other renames => ?_
    rw [renames.kind keyId, ObjectShape.indexed_rename]
    exact alike_resolveMembers _ rest ofRest

end

/-- The bases of an interface bring the same members. -/
theorem alike_resolveBases (shape : ObjectShape) (bases : List TypeExpr)
    (free : aliasing.own.Disjoint (mentionsOfAll bound bases)) :
    aliasing.Alike depth within (ObjectShape.rename moved)
      (resolveBases aliasing.symbols deeper scope shape bases)
      (resolveBases aliasing.symbols deeper' (scope.rename moved) (shape.rename moved) bases) := by
  induction bases generalizing shape with
  | nil => exact .pure rfl
  | cons base rest ih =>
    rw [mentionsOfAll, List.disjoint_append_right] at free
    rw [resolveBases, resolveBases]
    refine .bind (alike_resolve further inScope base free.1) fun id =>
      .look fun graph other renames => ?_
    have same := renames.kind id
    rw [properties_rename renames same, index?_rename renames same]
    have added := ih
      ⟨(graph.properties id).foldl upsertProperty shape.properties, shape.index.or (graph.index? id)⟩
      free.2
    rw [ObjectShape.rename, ← foldl_upsertProperty_rename, Option.map_or] at added
    exact added

/-! ### Declared types -/

/-- Parameters are bound alike. -/
theorem alike_bindParameters (parameters : List Parameter) (arguments : List TypeId)
    (free : aliasing.own.Disjoint (mentionsOfParameters bound parameters)) :
    aliasing.Alike depth within (Scope.rename moved)
      (bindParameters aliasing.symbols deeper scope parameters arguments)
      (bindParameters aliasing.symbols deeper' (scope.rename moved) parameters
        (arguments.map moved)) := by
  induction parameters generalizing scope bound arguments with
  | nil => exact .pure rfl
  | cons parameter rest ih =>
    rw [mentionsOfParameters, List.disjoint_append_right] at free
    have after : ∀ argument others, aliasing.Alike depth within (Scope.rename moved)
        (bindParameters aliasing.symbols deeper ((parameter.name, argument) :: scope) rest others)
        (bindParameters aliasing.symbols deeper'
          ((parameter.name, moved argument) :: scope.rename moved) rest (others.map moved)) := by
      intro argument others
      have wider : parameter.name :: bound ⊆
          List.map Prod.fst ((parameter.name, argument) :: scope) := List.cons_subset_cons _ inScope
      exact ih wider others free.2
    cases arguments with
    | cons argument others => exact after argument others
    | nil =>
      rw [List.map_nil, bindParameters, bindParameters]
      cases defaults : parameter.fallback with
      | none => exact .bind (alike_keywordType .unknown) fun argument => after argument []
      | some fallback =>
        rw [defaults] at free
        exact .bind (alike_resolve further inScope fallback free.1) fun argument => after argument []

/-- **The body of a declared type** is resolved alike. -/
theorem alike_bodyKind (id : TypeId) (body : Body)
    (free : aliasing.own.Disjoint (body.mentions bound)) :
    aliasing.Alike depth within (Kind.rename moved)
      (bodyKind aliasing.symbols deeper scope id body)
      (bodyKind aliasing.symbols deeper' (scope.rename moved) (moved id) body) := by
  cases body with
  | typeAlias type =>
    refine .bind (alike_resolve further inScope type free) fun target =>
      .look fun graph other renames => ?_
    exact .pure (aliasKind_rename renames moved_injective id target)
  | interface bases members =>
    rw [Body.mentions, List.disjoint_append_right] at free
    refine .bind (alike_resolveBases further inScope ⟨[], none⟩ bases free.1) fun inherited =>
      .bind (alike_resolveMembers further inScope ⟨[], none⟩ members free.2) fun own => .pure ?_
    show Kind.object ⟨(own.properties.map _).foldl upsertProperty (inherited.properties.map _), _⟩ =
      .object (ObjectShape.rename moved ⟨_, _⟩)
    rw [foldl_upsertProperty_rename]
    exact congrArg (fun index => Kind.object ⟨_, index⟩) Option.map_or.symm

end Types

/-- The scope of a declared type has all its parameters. -/
theorem keys_bindParameters (symbols : Symbols) (deeper : Deeper) (scope : Scope)
    (parameters : List Parameter) (arguments : List TypeId) (graph : Graph) :
    (bindParameters symbols deeper scope parameters arguments graph).1.map Prod.fst =
      (parameters.map Parameter.name).reverse ++ scope.map Prod.fst := by
  induction parameters generalizing scope arguments graph with
  | nil => rfl
  | cons parameter rest ih =>
    rw [List.map_cons, List.reverse_cons, List.append_assoc]
    cases arguments with
    | cons argument others => exact ih ((parameter.name, argument) :: scope) others graph
    | nil =>
      rw [bindParameters]
      cases parameter.fallback with
      | none => exact ih ((parameter.name, _) :: scope) [] (keywordType .unknown graph).2
      | some fallback =>
        exact ih ((parameter.name, _) :: scope) [] (resolve symbols deeper scope fallback graph).2

/-- **A declared type** with its arguments bound is resolved alike. -/
theorem alike_definition {aliasing : Aliasing} {depth : Nat} {within : List String}
    {deeper deeper' : Deeper} (further : Deeper.Alike aliasing depth within deeper deeper')
    (definition : Definition) (free : aliasing.own.Disjoint definition.mentions)
    (arguments : List TypeId) (id : TypeId) :
    aliasing.Alike depth within (Kind.rename moved)
      (bindParameters aliasing.symbols deeper [] definition.parameters arguments >>= fun scope =>
        bodyKind aliasing.symbols deeper scope id definition.body)
      (bindParameters aliasing.symbols deeper' [] definition.parameters (arguments.map moved) >>=
        fun scope => bodyKind aliasing.symbols deeper' scope (moved id) definition.body) := by
  rw [Definition.mentions, List.disjoint_append_right] at free
  intro graph other inStep
  have binding : aliasing.Alike depth within (Scope.rename moved)
      (bindParameters aliasing.symbols deeper [] definition.parameters arguments)
      (bindParameters aliasing.symbols deeper' [] definition.parameters (arguments.map moved)) :=
    alike_bindParameters further (List.nil_subset _) definition.parameters arguments free.1
  obtain ⟨bound, scopes⟩ := binding graph other inStep
  have inScope : definition.parameters.map Parameter.name ⊆
      (bindParameters aliasing.symbols deeper [] definition.parameters arguments graph).1.map
        Prod.fst := by
    intro parameter member
    rw [keys_bindParameters]
    exact List.mem_append_left _ (List.mem_reverse.mpr member)
  have body := alike_bodyKind further inScope id definition.body free.2 _ _ bound
  rw [← scopes] at body
  exact body

/-! ### Declared types -/

section Instances

variable {aliasing : Aliasing} {depth : Nat} {within : List String} {graph other : Graph}

/-- Both runs enter the same declared type. -/
theorem Aliasing.InStep.enter (inStep : aliasing.InStep depth within graph other) (name : String)
    (arguments : List TypeId) :
    aliasing.InStep (depth + 1) within (enterInstance ⟨name, arguments⟩ graph).2
      (enterInstance ⟨name, arguments.map moved⟩ other).2 := by
  have text := referenceText_rename inStep.renames name arguments
  have added := inStep.allocate .pending (graph.referenceText name arguments)
  rw [enterInstance_eq, enterInstance_eq]
  dsimp only
  rw [text]
  exact
    { added with
      instances := by
        show (_, other.nodes.size) :: other.instances = List.map _ ((_, graph.nodes.size) :: _) ++ _
        rw [inStep.instances, ← inStep.moved_size, List.map_cons, List.cons_append]
        rfl
      level := congrArg (· + 1) inStep.level
      level' := congrArg (· + 1) inStep.level' }

/-- Both runs leave the same declared type. -/
theorem Aliasing.InStep.leave (inStep : aliasing.InStep (depth + 1) within graph other)
    {id id' : TypeId} (there : id' = moved id) {kind kind' : Kind} (same : kind' = kind.rename moved) :
    aliasing.InStep depth within (leaveInstance id kind graph).2 (leaveInstance id' kind' other).2 := by
  subst there same
  rw [leaveInstance_eq, leaveInstance_eq]
  exact
    { inStep with
      occupied := by
        rw [Array.size_modify]
        exact inStep.occupied
      size := by
        rw [Array.size_modify, Array.size_modify]
        exact inStep.size
      nodes := by
        intro place
        rw [Array.getElem?_modify, Array.getElem?_modify, inStep.nodes place]
        by_cases same : id = place
        · rw [if_pos same, if_pos (congrArg moved same)]
          cases graph.nodes[place]? <;> rfl
        · rw [if_neg same, if_neg fun image => same (moved_injective image)]
      own := by
        rw [Array.getElem?_modify, if_neg (moved_ne_aliasPlace id)]
        exact inStep.own
      level := by
        show graph.depth - 1 = depth
        rw [inStep.level]
        rfl
      level' := by
        show other.depth - 1 = depth
        rw [inStep.level']
        rfl }

end Instances

/-- The alias and the two values are mentioned by no other declaration. -/
structure Aliasing.Fresh (aliasing : Aliasing) : Prop where
  types : ∀ name definition, aliasing.symbols.type? name = some definition → name ≠ aliasing.name →
    aliasing.own.Disjoint definition.mentions
  values : ∀ name type, aliasing.symbols.value? name = some type → name ≠ aliasing.direct →
    name ≠ aliasing.named → aliasing.own.Disjoint (mentions [] type)

section Levels

variable {aliasing : Aliasing} (fresh : aliasing.Fresh) {depth : Nat} {within : List String}

include fresh

/-- **A declared type other than the alias** is resolved alike. -/
theorem alike_instantiateWith {next next' : Deeper}
    (further : depth < maximalDepth → Deeper.Alike aliasing (depth + 1) within next next')
    (name : String) (arguments : List TypeId) (different : name ≠ aliasing.name) :
    aliasing.Alike depth within moved (instantiateWith aliasing.symbols next name arguments)
      (instantiateWith aliasing.symbols next' name (arguments.map moved)) := by
  intro graph other inStep
  have looked := inStep.lookup_instances different arguments
  have text := referenceText_rename inStep.renames name arguments
  cases found : graph.instances.lookup ⟨name, arguments⟩ with
  | some id =>
    rw [found] at looked
    rw [instantiateWith_of_some found, instantiateWith_of_some looked]
    exact ⟨inStep, rfl⟩
  | none =>
    rw [found] at looked
    cases declares : aliasing.symbols.type? name with
    | none =>
      rw [instantiateWith_undeclared found declares, instantiateWith_undeclared looked declares, text]
      exact alike_unresolvedType _ graph other inStep
    | some definition =>
      have free := fresh.types name definition declares different
      rw [instantiateWith_declared found declares, instantiateWith_declared looked declares, text,
        inStep.level, inStep.level']
      split
      · exact alike_opaqueNode _ graph other inStep
      · rename_i shallow
        have deeper := further (Nat.lt_of_not_le shallow)
        have entered := inStep.enter name arguments
        have body := alike_definition deeper definition free arguments graph.nodes.size _ _ entered
        rw [inStep.moved_size] at body
        exact ⟨body.1.leave inStep.moved_size.symm body.2, inStep.moved_size.symm⟩

/-- **A value other than the two** has the same type. -/
theorem alike_valueTypeWith {next next' : Deeper} (name : String)
    (further : (aliasing.symbols.value? name).isSome = true → name ∉ within →
      Deeper.Alike aliasing depth (name :: within) next next')
    (direct : name ≠ aliasing.direct) (named : name ≠ aliasing.named) :
    aliasing.Alike depth within moved (valueTypeWith aliasing.symbols next name)
      (valueTypeWith aliasing.symbols next' name) := by
  intro graph other inStep
  have looked := inStep.lookup_values name
  cases found : graph.values.lookup name with
  | some id =>
    rw [found] at looked
    rw [valueTypeWith_of_some found, valueTypeWith_of_some looked]
    exact ⟨inStep, rfl⟩
  | none =>
    rw [found] at looked
    cases declares : aliasing.symbols.value? name with
    | none =>
      rw [valueTypeWith_undeclared found declares, valueTypeWith_undeclared looked declares]
      exact alike_unresolvedType _ graph other inStep
    | some type =>
      have entered : name ∈ graph.resolving ↔ name ∈ within := by
        simp [inStep.resolving, direct]
      have entered' : name ∈ other.resolving ↔ name ∈ within := by
        simp [inStep.resolving', named]
      rw [valueTypeWith_declared found declares, valueTypeWith_declared looked declares]
      simp only [entered, entered']
      split
      · exact alike_opaqueNode _ graph other inStep
      · rename_i outside
        have deeper := further (by rw [declares]; rfl) outside
        have free := fresh.values name type declares direct named
        have inside : aliasing.InStep depth (name :: within)
            { graph with resolving := name :: graph.resolving }
            { other with resolving := name :: other.resolving } :=
          { inStep with
            resolving := congrArg (List.cons name) inStep.resolving
            resolving' := congrArg (List.cons name) inStep.resolving' }
        have resolved : aliasing.Alike depth (name :: within) moved
            (resolve aliasing.symbols next [] type) (resolve aliasing.symbols next' [] type) :=
          alike_resolve deeper (List.nil_subset _) type free
        obtain ⟨ended, same⟩ := resolved _ _ inside
        refine ⟨{ ended with values := ?_, resolving := ?_, resolving' := ?_ }, same⟩
        · exact congrArg₂ List.cons (congrArg (Prod.mk name) same) ended.values
        · show List.erase _ name = _
          rw [ended.resolving, List.cons_append, List.erase_cons_head]
        · show List.erase _ name = _
          rw [ended.resolving', List.cons_append, List.erase_cons_head]

/-- The room of a run within a number of declared types and the given values. -/
def Symbols.roomAt (symbols : Symbols) (depth : Nat) (resolving : List String) : Nat :=
  symbols.room { Graph.initial with depth, resolving }

/-- **Resolution is alike at every level** that both runs have room for. -/
theorem Deeper.alike_ofLevels {levels levels' : Nat}
    (enough : aliasing.symbols.roomAt depth (within ++ [aliasing.direct]) < levels)
    (enough' : aliasing.symbols.roomAt depth (within ++ [aliasing.named]) < levels') :
    Deeper.Alike aliasing depth within (.ofLevels aliasing.symbols levels)
      (.ofLevels aliasing.symbols levels') := by
  induction levels generalizing levels' depth within with
  | zero => exact absurd enough (Nat.not_lt_zero _)
  | succ levels ih =>
    cases levels' with
    | zero => exact absurd enough' (Nat.not_lt_zero _)
    | succ levels' =>
      refine ⟨fun name arguments different => ?_, fun name direct named => ?_⟩
      · refine alike_instantiateWith fresh (fun shallow => ?_) name arguments different
        have entered : ∀ resolving, aliasing.symbols.roomAt (depth + 1) resolving <
            aliasing.symbols.roomAt depth resolving := by
          intro resolving
          let graph : Graph := { Graph.initial with depth, resolving }
          have less : graph.depth < maximalDepth := shallow
          exact aliasing.symbols.room_enter ⟨name, []⟩ less
        exact ih (Nat.lt_of_lt_of_le (entered _) (Nat.le_of_lt_succ enough))
          (Nat.lt_of_lt_of_le (entered _) (Nat.le_of_lt_succ enough'))
      · refine alike_valueTypeWith fresh name (fun declared outside => ?_) direct named
        obtain ⟨type, declares⟩ := Option.isSome_iff_exists.mp declared
        have entered : ∀ own, name ≠ own →
            aliasing.symbols.roomAt depth (name :: within ++ [own]) <
              aliasing.symbols.roomAt depth (within ++ [own]) := by
          intro own different
          let graph : Graph := { Graph.initial with depth, resolving := within ++ [own] }
          have free : name ∉ graph.resolving := by simp [graph, outside, different]
          exact Symbols.room_resolving declares free
        exact ih (Nat.lt_of_lt_of_le (entered _ direct) (Nat.le_of_lt_succ enough))
          (Nat.lt_of_lt_of_le (entered _ named) (Nat.le_of_lt_succ enough'))

end Levels

end SwiftBindings.TypeGraph
