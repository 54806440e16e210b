/-
**Types as written follow each other.**

Every type as written, resolved in a fresh run and in a longer one under scopes that match, gives
types that match (`follows_resolve`), if that holds of declared names one level further in
(`Deeper.Follows`). The same holds of bases, of parameters and of bodies.
-/

import SwiftBindings.Proofs.TypeGraph.FollowingTypes

set_option linter.unusedSectionVars false

namespace SwiftBindings.TypeGraph

open Declared

/-! ### Scopes and shapes -/

/-- Two scopes have the same names, for types that match. -/
def Scope.Matches (images : Images) (scope scope' : Scope) : Prop :=
  List.Forall₂ (fun entry entry' => entry.1 = entry'.1 ∧ images.Maps entry.2 entry'.2) scope scope'

instance (scope scope' : Scope) : Stable fun images => scope.Matches images scope' :=
  ⟨fun extended matching => List.Forall₂.imp
    (fun _ _ both => ⟨both.1, both.2.mono extended⟩) matching⟩

/-- A name stands for types that match. -/
theorem Scope.Matches.lookup {images : Images} {scope scope' : Scope}
    (matching : scope.Matches images scope') (name : String) :
    Option.Rel images.Maps (List.lookup name scope) (List.lookup name scope') :=
  lookup_related matching name

/-- Keys of the same kind give the same type of further properties. -/
theorem ObjectShape.indexed_matches {images : Images} {shape shape' : ObjectShape} {key key' : Kind}
    {value value' : TypeId} (matching : shape.Matches images.Maps shape')
    (maps : images.Maps value value')
    (same : ∀ keyword, key = .primitive keyword ↔ key' = .primitive keyword) :
    (shape.indexed key value).Matches images.Maps (shape'.indexed key' value') := by
  rw [ObjectShape.indexed, ObjectShape.indexed]
  simp only [same]
  split
  · exact ⟨matching.properties, .some maps⟩
  · exact matching

/-! ### Names -/

/-- Declared names follow each other one level further in. -/
structure Deeper.Follows (runs : TwoRuns) (levels levels' : Nat) (deeper deeper' : Deeper)
    (clear clear' : Clear) : Prop where
  keeps : deeper.Keeps runs.symbols .all levels clear
  keeps' : deeper'.Keeps runs.symbols runs.fresh.resolvedNames levels' clear'
  instantiate : ∀ name arguments arguments', (runs.symbols.type? name).isSome = true →
    TypeGraph.Follows runs levels levels'
      (fun images => List.Forall₂ images.Maps arguments arguments')
      (clear.instantiate true name arguments) (deeper.instantiate name arguments)
      (clear'.instantiate true name arguments') (deeper'.instantiate name arguments') Images.Maps
  valueType : ∀ name, TypeGraph.Follows runs levels levels' (fun _ => True)
    (clear.valueType true name) (deeper.valueType name)
    (clear'.valueType true name) (deeper'.valueType name) Images.Maps

section Types

variable {runs : TwoRuns} {levels levels' : Nat} {deeper deeper' : Deeper} {clear clear' : Clear}
  (further : Deeper.Follows runs levels levels' deeper deeper' clear clear')
  (scope scope' : Scope)

include further

theorem follows_namedType (name : String) (arguments arguments' : List TypeId) :
    Follows runs levels levels' (fun images => List.Forall₂ images.Maps arguments arguments')
      (clearNamed runs.symbols clear true name arguments)
      (namedType runs.symbols deeper name arguments)
      (clearNamed runs.symbols clear' true name arguments')
      (namedType runs.symbols deeper' name arguments') Images.Maps := by
  rw [clearNamed, clearNamed, namedType, namedType]
  split
  · rename_i declared
    exact further.instantiate name arguments arguments' declared
  · exact follows_providedType name arguments arguments'

theorem follows_queriedType (name : String) :
    Follows runs levels levels' (fun _ => True)
      (clearQueried deeper clear true name) (queriedType deeper name)
      (clearQueried deeper' clear' true name) (queriedType deeper' name) Images.Maps := by
  refine (further.valueType _).bind fun id id' => ?_
  refine .look (fun images graph other => Option.Rel images.Maps
    (graph.follow? id (segments name).tail) (other.follow? id' (segments name).tail)) ?_ ?_
  · intro images graph other holds mirrors continues passed passed'
    exact follow?_matches mirrors continues holds.2 _ passed passed'
  · intro graph other
    generalize graph.follow? id (segments name).tail = found,
      other.follow? id' (segments name).tail = found'
    apply Follows.option found found'
    · exact fun _ both => both.2
    · intro found
      cases found with
      | none => exact keeps_allocate Kind.noConfusion _
      | some type => exact .pure type
    · intro found'
      cases found' with
      | none => exact keeps_allocate Kind.noConfusion _
      | some type' => exact .pure type'
    · exact follows_opaqueNode
    · exact fun _ _ => .pure fun _ both => both.2

/-! ### Types as written -/

mutual

/-- **A type as written**, resolved in both runs, gives types that match. -/
theorem follows_resolve : ∀ type : TypeExpr,
    Follows runs levels levels' (fun images => scope.Matches images scope')
      (clearType runs.symbols deeper clear true scope type)
      (resolve runs.symbols deeper scope type)
      (clearType runs.symbols deeper' clear' true scope' type)
      (resolve runs.symbols deeper' scope' type) Images.Maps
  | .keyword keyword => follows_keywordType keyword
  | .stringLiteral value => follows_stringLiteralType value
  | .numberLiteral text =>
      follows_allocate (fun _ _ => .numberLiteral text) Kind.noConfusion Kind.noConfusion
  | .booleanLiteral value =>
      follows_allocate (fun _ _ => .booleanLiteral value) Kind.noConfusion Kind.noConfusion
  | .reference name arguments => by
    rw [clearType, clearType, resolve, resolve]
    have held : ∀ images, scope.Matches images scope' → Option.Rel images.Maps
        (if arguments.isEmpty then scope.lookup name else none)
        (if arguments.isEmpty then scope'.lookup name else none) := by
      intro images matching
      split
      · exact matching.lookup name
      · exact .none
    have keeps : ∀ {watch levels deeper clear scope},
        Deeper.Keeps runs.symbols watch levels deeper clear → Keeps runs.symbols watch levels
          ((clearAll runs.symbols deeper clear true scope arguments).andThen
            (resolveAll runs.symbols deeper scope arguments)
            fun ids => clearNamed runs.symbols clear true name ids)
          (resolveAll runs.symbols deeper scope arguments >>= fun ids =>
            namedType runs.symbols deeper name ids) :=
      fun keeps => (keeps_resolveAll keeps true _ arguments).bind fun ids =>
        keeps_namedType keeps true name ids
    revert held
    generalize (if arguments.isEmpty then scope.lookup name else none) = found,
      (if arguments.isEmpty then scope'.lookup name else none) = found'
    intro held
    apply Follows.option found found' held
    · intro found
      cases found with
      | none => exact keeps further.keeps
      | some id => exact .pure id
    · intro found'
      cases found' with
      | none => exact keeps further.keeps'
      | some id' => exact .pure id'
    · exact (follows_resolveAll arguments).bind fun ids ids' =>
        (follows_namedType further name ids ids').weaken fun _ both => both.2
    · exact fun _ _ => .pure fun _ both => both.2
  | .array element => by
    rw [clearType, clearType, resolve, resolve]
    exact (follows_resolve element).andThen fun id id' =>
      (follows_arrayType id id').weaken fun _ both => both.2
  | .tuple elements => by
    rw [clearType, clearType, resolve, resolve]
    exact (follows_resolveAll elements).andThen fun ids ids' =>
      (follows_tupleType ids ids').weaken fun _ both => both.2
  | .union members => by
    rw [clearType, clearType, resolve, resolve]
    exact (follows_resolveAlternatives members).andThen fun ids ids' =>
      (follows_unionType ids ids').weaken fun _ both => both.2
  | .intersection members => by
    rw [clearType, clearType, resolve, resolve]
    exact (follows_resolveAll members).andThen fun ids ids' =>
      (follows_intersectionType ids ids').weaken fun _ both => both.2
  | .object members => by
    rw [clearType, clearType, resolve, resolve]
    have inside := follows_resolveMembers ⟨[], none⟩ ⟨[], none⟩ members
    refine (inside.weaken fun _ matching => ⟨matching, .nil, .none⟩).andThen fun shape shape' => ?_
    exact (follows_objectType shape shape').weaken fun _ both => both.2
  | .query name => by
    rw [clearType, clearType, resolve, resolve]
    exact (follows_queriedType further name).weaken fun _ _ => trivial
  | .opaqueText text => by
    rw [resolve, resolve]
    exact follows_opaqueNode

theorem follows_resolveAll : ∀ types : List TypeExpr,
    Follows runs levels levels' (fun images => scope.Matches images scope')
      (clearAll runs.symbols deeper clear true scope types)
      (resolveAll runs.symbols deeper scope types)
      (clearAll runs.symbols deeper' clear' true scope' types)
      (resolveAll runs.symbols deeper' scope' types) fun images => List.Forall₂ images.Maps
  | [] => by
    rw [resolveAll, resolveAll]
    exact .pure fun _ _ => .nil
  | type :: rest => by
    rw [clearAll, clearAll, resolveAll, resolveAll]
    refine (follows_resolve type).bind fun id id' => ?_
    exact ((follows_resolveAll rest).weaken fun _ both => both.1).andThen fun ids ids' =>
      .pure fun _ both => .cons both.1.2 both.2

theorem follows_resolveAlternatives : ∀ types : List TypeExpr,
    Follows runs levels levels' (fun images => scope.Matches images scope')
      (clearAlternatives runs.symbols deeper clear true scope types)
      (resolveAlternatives runs.symbols deeper scope types)
      (clearAlternatives runs.symbols deeper' clear' true scope' types)
      (resolveAlternatives runs.symbols deeper' scope' types) fun images => List.Forall₂ images.Maps
  | [] => by
    rw [resolveAlternatives, resolveAlternatives]
    exact .pure fun _ _ => .nil
  | type :: rest => by
    rw [clearAlternatives, clearAlternatives, resolveAlternatives, resolveAlternatives]
    refine (follows_resolve type).bind fun id id' => ?_
    refine .look (fun images graph other =>
      List.Forall₂ images.Maps (graph.alternatives id) (other.alternatives id')) ?_ ?_
    · intro images graph other holds mirrors continues passed passed'
      exact alternatives_matches runs.finished mirrors continues holds.2
        (Bool.and_eq_true_iff.mp passed).1 (Bool.and_eq_true_iff.mp passed').1
    · intro graph other
      have others := (follows_resolveAlternatives rest).and
        (Check.watched true fun graph => graph.shows runs.symbols id)
        (Check.watched true fun graph => graph.shows runs.symbols id')
      exact (others.weaken fun _ both => both.1.1).andThen fun ids ids' =>
        .pure fun _ both => List.rel_append both.1.2 both.2

theorem follows_resolveMembers : ∀ (shape shape' : ObjectShape) (members : List Member),
    Follows runs levels levels'
      (fun images => scope.Matches images scope' ∧ shape.Matches images.Maps shape')
      (clearMembers runs.symbols deeper clear true scope members)
      (resolveMembers runs.symbols deeper scope shape members)
      (clearMembers runs.symbols deeper' clear' true scope' members)
      (resolveMembers runs.symbols deeper' scope' shape' members)
      fun images => ObjectShape.Matches images.Maps
  | shape, shape', [] => by
    rw [resolveMembers, resolveMembers]
    exact .pure fun _ both => both.2
  | shape, shape', .property name optional type :: rest => by
    rw [clearMembers, clearMembers, resolveMembers, resolveMembers]
    refine ((follows_resolve type).weaken fun _ both => both.1).bind fun id id' => ?_
    refine (follows_resolveMembers _ _ rest).weaken fun images holds => ?_
    obtain ⟨⟨scopes, shapes⟩, maps⟩ := holds
    exact ⟨scopes, upsertProperty_matches shapes.properties ⟨rfl, rfl, maps⟩, shapes.index⟩
  | shape, shape', .index key value :: rest => by
    rw [clearMembers, clearMembers, resolveMembers, resolveMembers]
    refine ((follows_resolve key).weaken fun _ both => both.1).bind fun keyId keyId' => ?_
    refine ((follows_resolve value).weaken fun _ both => both.1.1).bind fun valueId valueId' => ?_
    refine .look (fun _ graph other => ∀ keyword,
      graph.kind keyId = .primitive keyword ↔ other.kind keyId' = .primitive keyword) ?_ ?_
    · intro images graph other holds mirrors continues passed passed' keyword
      exact primitive_seen (kind_seenAs runs.finished mirrors continues holds.1.2
        (Bool.and_eq_true_iff.mp passed).1 (Bool.and_eq_true_iff.mp passed').1) keyword
    · intro graph other
      refine ((follows_resolveMembers _ _ rest).weaken fun images holds => ?_).and _ _
      obtain ⟨⟨⟨⟨scopes, shapes⟩, _⟩, maps⟩, same⟩ := holds
      exact ⟨scopes, ObjectShape.indexed_matches shapes maps same⟩

end

/-- The bases of an interface bring matching members. -/
theorem follows_resolveBases (shape shape' : ObjectShape) (bases : List TypeExpr) :
    Follows runs levels levels'
      (fun images => scope.Matches images scope' ∧ shape.Matches images.Maps shape')
      (clearBases runs.symbols deeper clear true scope bases)
      (resolveBases runs.symbols deeper scope shape bases)
      (clearBases runs.symbols deeper' clear' true scope' bases)
      (resolveBases runs.symbols deeper' scope' shape' bases)
      fun images => ObjectShape.Matches images.Maps := by
  induction bases generalizing shape shape' with
  | nil => exact .pure fun _ both => both.2
  | cons base rest ih =>
    rw [clearBases, clearBases, resolveBases, resolveBases]
    refine ((follows_resolve further scope scope' base).weaken fun _ both => both.1).bind
      fun id id' => ?_
    refine .look (fun images graph other =>
      List.Forall₂ (Property.Matches images.Maps) (graph.properties id) (other.properties id') ∧
        Option.Rel images.Maps (graph.index? id) (other.index? id')) ?_ ?_
    · intro images graph other holds mirrors continues passed passed'
      have known := (Bool.and_eq_true_iff.mp passed).1
      have known' := (Bool.and_eq_true_iff.mp passed').1
      exact ⟨properties_matches mirrors continues holds.2 known known',
        index?_matches mirrors continues holds.2 known known'⟩
    · intro graph other
      refine ((ih _ _).weaken fun images holds => ?_).and _ _
      obtain ⟨⟨⟨scopes, shapes⟩, _⟩, properties, index⟩ := holds
      refine ⟨scopes, foldl_upsertProperty_matches shapes.properties properties, ?_⟩
      exact rel_or shapes.index index

/-! ### Declared types -/

/-- Parameters are bound to types that match. -/
theorem follows_bindParameters (parameters : List Parameter) (arguments arguments' : List TypeId) :
    Follows runs levels levels'
      (fun images => scope.Matches images scope' ∧
        List.Forall₂ images.Maps arguments arguments')
      (clearParameters runs.symbols deeper clear true scope parameters arguments)
      (bindParameters runs.symbols deeper scope parameters arguments)
      (clearParameters runs.symbols deeper' clear' true scope' parameters arguments')
      (bindParameters runs.symbols deeper' scope' parameters arguments')
      fun images scope scope' => scope.Matches images scope' := by
  refine .assume (fun _ both => both.2.length_eq)
    (keeps_bindParameters further.keeps true scope parameters arguments)
    (keeps_bindParameters further.keeps' true scope' parameters arguments') fun same => ?_
  induction parameters generalizing scope scope' arguments arguments' with
  | nil =>
    rw [bindParameters, bindParameters]
    exact .pure fun _ both => both.1
  | cons parameter rest ih =>
    cases arguments with
    | cons argument others =>
      cases arguments' with
      | nil => cases same
      | cons argument' others' =>
        rw [clearParameters, clearParameters, bindParameters, bindParameters]
        refine (ih _ _ others others' (Nat.succ.inj same)).weaken fun images both => ?_
        obtain ⟨scopes, matching⟩ := both
        obtain ⟨maps, matching⟩ := List.forall₂_cons.mp matching
        exact ⟨.cons ⟨rfl, maps⟩ scopes, matching⟩
    | nil =>
      cases arguments' with
      | cons _ _ => cases same
      | nil =>
        have after : ∀ argument argument', Follows runs levels levels'
            (fun images => (scope.Matches images scope' ∧ List.Forall₂ images.Maps [] []) ∧
              images.Maps argument argument')
            (clearParameters runs.symbols deeper clear true ((parameter.name, argument) :: scope)
              rest [])
            (bindParameters runs.symbols deeper ((parameter.name, argument) :: scope) rest [])
            (clearParameters runs.symbols deeper' clear' true ((parameter.name, argument') :: scope')
              rest [])
            (bindParameters runs.symbols deeper' ((parameter.name, argument') :: scope') rest [])
            fun images scope scope' => scope.Matches images scope' := fun argument argument' =>
          (ih _ _ [] [] rfl).weaken fun _ both => ⟨.cons ⟨rfl, both.2⟩ both.1.1, .nil⟩
        rw [clearParameters, clearParameters, bindParameters, bindParameters]
        cases parameter.fallback with
        | some fallback =>
          exact ((follows_resolve further scope scope' fallback).weaken fun _ both => both.1).bind after
        | none => exact (follows_keywordType .unknown).bind after

/-- The body of an interface. -/
theorem follows_interface (id id' : TypeId) (bases : List TypeExpr) (members : List Member) :
    Follows runs levels levels' (fun images => scope.Matches images scope')
      (clearBody runs.symbols deeper clear true scope (.interface bases members))
      (bodyKind runs.symbols deeper scope id (.interface bases members))
      (clearBody runs.symbols deeper' clear' true scope' (.interface bases members))
      (bodyKind runs.symbols deeper' scope' id' (.interface bases members))
      fun images => Kind.Matches images.Maps := by
  rw [clearBody, clearBody, bodyKind, bodyKind]
  have bases := follows_resolveBases further scope scope' ⟨[], none⟩ ⟨[], none⟩ bases
  refine (bases.weaken fun _ scopes => ⟨scopes, .nil, .none⟩).bind fun inherited inherited' => ?_
  have members := follows_resolveMembers further scope scope' ⟨[], none⟩ ⟨[], none⟩ members
  refine (members.weaken fun _ both => ⟨both.1, .nil, .none⟩).andThen fun own own' => ?_
  refine .pure fun _ both => .object ⟨?_, rel_or both.2.index both.1.2.index⟩
  exact foldl_upsertProperty_matches both.1.2.properties both.2.properties

omit further in
/-- An alias has the structure of its target, where that is known and its own is not. -/
theorem aliasKind_eq {graph : Graph} {id target : TypeId} (known : graph.isKnown target = true)
    (unfinished : graph.kind id = .pending) : graph.aliasKind id target = graph.kind target := by
  have settled := (Graph.isKnown_iff.mp known).2
  rw [Graph.aliasKind, if_neg settled, if_neg]
  rintro rfl
  exact settled unfinished

/-- **The body of a declared type** has structures that match in both runs, if its own place is
unfinished in both. -/
theorem ends_bodyKind {images : Images} {graph other : Graph} {id id' : TypeId} (body : Body)
    (scopes : scope.Matches images scope') (mirrors : graph.Mirrors images runs.final)
    (enough : runs.symbols.room graph < levels) (enough' : runs.symbols.room other < levels')
    (passed : clearBody runs.symbols deeper clear true scope body graph = true)
    (passed' : clearBody runs.symbols deeper' clear' true scope' body other = true)
    (unfinished : graph.kind id = .pending) (unfinished' : other.kind id' = .pending)
    (ended : (bodyKind runs.symbols deeper scope id body graph).2.Continues runs.fresh)
    (ended' : (bodyKind runs.symbols deeper' scope' id' body other).2.Continues runs.final) :
    runs.Ends images (fun images => Kind.Matches images.Maps)
      (bodyKind runs.symbols deeper scope id body graph)
      (bodyKind runs.symbols deeper' scope' id' body other) := by
  cases body with
  | interface bases members =>
    exact (follows_interface further scope scope' id id' bases members).ends images graph other scopes
      mirrors enough enough' passed passed' ended ended'
  | typeAlias type =>
    obtain ⟨passed, known⟩ := Bool.and_eq_true_iff.mp passed
    obtain ⟨passed', known'⟩ := Bool.and_eq_true_iff.mp passed'
    have grows := (keeps_resolve further.keeps true scope type graph enough passed).grows
    have grows' := (keeps_resolve further.keeps' true scope' type other enough' passed').grows
    obtain ⟨more, extended, mirrors, maps⟩ := (follows_resolve further scope scope' type).ends images
      graph other scopes mirrors enough enough' passed passed' ended ended'
    refine ⟨more, extended, mirrors, ?_⟩
    show (Graph.aliasKind _ id _).Matches (Images.Maps more) (Graph.aliasKind _ id' _)
    rw [aliasKind_eq known (grows.unfinished unfinished),
      aliasKind_eq known' (grows'.unfinished unfinished')]
    exact kind_matches mirrors ended' maps known known'

end Types

end SwiftBindings.TypeGraph
