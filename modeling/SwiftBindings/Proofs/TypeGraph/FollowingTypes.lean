/-
**Types of the framework follow each other.**

Keywords, literals and the types that every file can refer to, built in a fresh run and in a longer
one from parts that match, match themselves (`follows_keywordType`, `follows_providedType`). Where a
step looks at types, both sides have passed its test, so both see the same.
-/

import SwiftBindings.Proofs.TypeGraph.Following

set_option linter.unusedSectionVars false

namespace SwiftBindings.TypeGraph

open Declared

section Framework

variable {runs : TwoRuns} {levels levels' : Nat} {before : Images → Prop} {check check' : Check}

/-! ### Keywords and literals -/

theorem follows_keywordType (keyword : Keyword) :
    Follows runs levels levels' before check (keywordType keyword) check' (keywordType keyword)
      Images.Maps where
  keeps := keeps_keywordType keyword
  keeps' := keeps_keywordType keyword
  ends images graph other _ mirrors _ _ _ _ _ ended' := by
    have held := ended'.keywords _ _ (lookup_keywordType keyword other)
    cases found : graph.keywords.lookup keyword with
    | some id =>
      obtain ⟨second, maps, held'⟩ := mirrors.keywords keyword id found
      cases held.symm.trans held'
      rw [keywordType_of_some found]
      exact ⟨images, List.prefix_rfl, mirrors, maps⟩
    | none =>
      have has := runs.finished.recorded.keywords keyword _ held
      have matching : (Kind.primitive keyword).Matches images.Maps
          (runs.final.kind (keywordType keyword other).1) := by
        rw [has.kind_eq]
        exact .primitive keyword
      have added := mirrors.allocate (.primitive keyword) keyword.text _ fun _ => matching
      rw [keywordType_of_none found]
      refine ⟨_, List.prefix_append _ _, { added with keywords := ?_ }, mirrors.maps_new _⟩
      intro word first held'
      rcases lookup_cons_cases held' with ⟨rfl, rfl⟩ | before'
      · exact ⟨_, mirrors.maps_new _, held⟩
      · exact added.keywords word first before'

theorem follows_stringLiteralType (value : String) :
    Follows runs levels levels' before check (stringLiteralType value) check'
      (stringLiteralType value) Images.Maps where
  keeps := keeps_stringLiteralType value
  keeps' := keeps_stringLiteralType value
  ends images graph other _ mirrors _ _ _ _ _ ended' := by
    have held := ended'.literals _ _ (lookup_stringLiteralType value other)
    cases found : graph.literals.lookup value with
    | some id =>
      obtain ⟨second, maps, held'⟩ := mirrors.literals value id found
      cases held.symm.trans held'
      rw [stringLiteralType_of_some found]
      exact ⟨images, List.prefix_rfl, mirrors, maps⟩
    | none =>
      have has := runs.finished.recorded.literals value _ held
      have matching : (Kind.stringLiteral value).Matches images.Maps
          (runs.final.kind (stringLiteralType value other).1) := by
        rw [has.kind_eq]
        exact .stringLiteral value
      have added := mirrors.allocate (.stringLiteral value) (literalText value) _ fun _ => matching
      rw [stringLiteralType_of_none found]
      refine ⟨_, List.prefix_append _ _, { added with literals := ?_ }, mirrors.maps_new _⟩
      intro text first held'
      rcases lookup_cons_cases held' with ⟨rfl, rfl⟩ | before'
      · exact ⟨_, mirrors.maps_new _, held⟩
      · exact added.literals text first before'

/-! ### Types of the framework -/

theorem follows_unresolvedType {text text' : String} :
    Follows runs levels levels' before check (unresolvedType text) check' (unresolvedType text')
      Images.Maps :=
  follows_allocate (fun _ _ => .unresolved) Kind.noConfusion Kind.noConfusion

theorem follows_opaqueNode {text text' : String} :
    Follows runs levels levels' before check (opaqueNode text) check' (opaqueNode text')
      Images.Maps :=
  follows_allocate (fun _ _ => .opaqueType) Kind.noConfusion Kind.noConfusion

theorem follows_arrayType (element element' : TypeId) :
    Follows runs levels levels' (fun images => images.Maps element element') check
      (arrayType element) check' (arrayType element') Images.Maps :=
  .read fun _ _ => follows_allocate (fun _ maps => .array maps) Kind.noConfusion Kind.noConfusion

theorem follows_tupleType (elements elements' : List TypeId) :
    Follows runs levels levels' (fun images => List.Forall₂ images.Maps elements elements') check
      (tupleType elements) check' (tupleType elements') Images.Maps :=
  .read fun _ _ => follows_allocate (fun _ maps => .tuple maps) Kind.noConfusion Kind.noConfusion

theorem follows_unionType (members members' : List TypeId) :
    Follows runs levels levels' (fun images => List.Forall₂ images.Maps members members') check
      (unionType members) check' (unionType members') Images.Maps :=
  .read fun _ _ => follows_allocate (fun _ maps => .union maps) Kind.noConfusion Kind.noConfusion

theorem follows_intersectionType (parts parts' : List TypeId) :
    Follows runs levels levels' (fun images => List.Forall₂ images.Maps parts parts') check
      (intersectionType parts) check' (intersectionType parts') Images.Maps :=
  .read fun _ _ =>
    follows_allocate (fun _ maps => .intersection maps) Kind.noConfusion Kind.noConfusion

theorem follows_objectType (shape shape' : ObjectShape) :
    Follows runs levels levels' (fun images => shape.Matches images.Maps shape') check
      (objectType shape) check' (objectType shape') Images.Maps :=
  .read fun _ _ =>
    follows_allocate (fun _ matching => .object matching) Kind.noConfusion Kind.noConfusion

/-- A mapping with the same listed keys, or with any key. -/
theorem follows_recordType (key key' value value' : TypeId) :
    Follows runs levels levels'
      (fun images => images.Maps key key' ∧ images.Maps value value')
      (fun graph => graph.showsMembers runs.symbols key) (recordType key value)
      (fun graph => graph.showsMembers runs.symbols key') (recordType key' value') Images.Maps := by
  refine .look (fun _ graph other => graph.literalKeys? key = other.literalKeys? key') ?_ ?_
  · intro images graph other maps mirrors continues passed passed'
    exact literalKeys?_eq runs.finished mirrors continues maps.1 passed passed'
  · intro graph other
    refine follows_allocate (fun images related => ?_) Kind.noConfusion Kind.noConfusion
    obtain ⟨⟨_, maps⟩, same⟩ := related
    refine .object ?_
    rw [same]
    cases other.literalKeys? key' with
    | none => exact ⟨.nil, .some maps⟩
    | some names =>
      refine ⟨?_, .none⟩
      show List.Forall₂ _ (names.map _) (names.map _)
      rw [List.forall₂_map_left_iff, List.forall₂_map_right_iff, List.forall₂_same]
      exact fun name _ => ⟨rfl, rfl, maps⟩

theorem PresenceChange.apply_matches {relate : TypeId → TypeId → Prop} (change : PresenceChange)
    {property image : Property} (matching : property.Matches relate image) :
    (change.apply property).Matches relate (change.apply image) where
  name := matching.name
  optional := by
    cases change with
    | unchanged => exact matching.optional
    | _ => rfl
  type := matching.type

theorem isEmpty_eq_of_forall₂ {α β : Type} {relate : α → β → Prop} {firsts : List α}
    {seconds : List β} (matching : List.Forall₂ relate firsts seconds) :
    firsts.isEmpty = seconds.isEmpty := by
  cases matching <;> rfl

/-- A type with the presence of its properties changed. -/
theorem follows_presenceType (name : String) (change : PresenceChange) (target target' : TypeId) :
    Follows runs levels levels' (fun images => images.Maps target target')
      (fun graph => graph.knowsProperties target) (presenceType name change target)
      (fun graph => graph.knowsProperties target') (presenceType name change target')
      Images.Maps := by
  refine .look (fun images graph other =>
    List.Forall₂ (Property.Matches images.Maps) (graph.properties target)
        (other.properties target') ∧
      Option.Rel images.Maps (graph.index? target) (other.index? target')) ?_ ?_
  · intro images graph other maps mirrors continues passed passed'
    exact ⟨properties_matches mirrors continues maps passed passed',
      index?_matches mirrors continues maps passed passed'⟩
  · intro graph other
    refine .ite (fun images related => ?_) follows_unresolvedType
      (follows_allocate (fun images related => ?_) Kind.noConfusion Kind.noConfusion)
    · obtain ⟨_, properties, index⟩ := related
      rw [isEmpty_eq_of_forall₂ properties, isNone_eq_of_rel index]
    · obtain ⟨_, properties, index⟩ := related
      refine .object ⟨?_, index⟩
      rw [List.forall₂_map_left_iff, List.forall₂_map_right_iff]
      exact properties.imp fun _ _ => change.apply_matches

/-- The alternatives of a union that are neither null nor undefined. -/
def Graph.nonNullable (graph : Graph) (members : List TypeId) : List TypeId :=
  members.filter fun member =>
    graph.kind member != .primitive .null && graph.kind member != .primitive .undefined

theorem nonNullableType_of_none {target : TypeId} {graph : Graph}
    (none : graph.unionMembers? target = none) : nonNullableType target graph = (target, graph) := by
  rw [nonNullableType, get_bind_apply, none]
  rfl

theorem nonNullableType_of_some {target : TypeId} {graph : Graph} {members : List TypeId}
    (some : graph.unionMembers? target = some members) :
    nonNullableType target graph =
      (match graph.nonNullable members with
        | [single] => pure single
        | kept => unionType kept : Building TypeId) graph := by
  rw [nonNullableType, get_bind_apply, some, Graph.nonNullable]
  dsimp only
  generalize List.filter _ members = kept
  rcases kept with _ | ⟨_, _ | _⟩ <;> rfl

/-- Members that are seen as the same are kept alike. -/
theorem nonNullable_matches {images : Images} {graph other : Graph} {members members' : List TypeId}
    (seen : List.Forall₂ (fun member image => images.Maps member image ∧
      (graph.kind member).SeenAs images.Maps (other.kind image)) members members') :
    List.Forall₂ images.Maps (graph.nonNullable members) (other.nonNullable members') := by
  rw [Graph.nonNullable, Graph.nonNullable]
  induction seen with
  | nil => exact .nil
  | cons head _ ih =>
    have same : ∀ keyword, (graph.kind _ != .primitive keyword) =
        (other.kind _ != .primitive keyword) := fun keyword => by
      rw [Bool.eq_iff_iff, bne_iff_ne, bne_iff_ne, ne_eq, ne_eq, primitive_seen head.2 keyword]
    rw [List.filter_cons, List.filter_cons, same, same]
    split
    · exact .cons head.1 ih
    · exact ih

/-- A union without null and undefined. -/
theorem follows_nonNullableType (target target' : TypeId) :
    Follows runs levels levels' (fun images => images.Maps target target')
      (fun graph => graph.showsMembers runs.symbols target) (nonNullableType target)
      (fun graph => graph.showsMembers runs.symbols target') (nonNullableType target')
      Images.Maps where
  keeps := (keeps_nonNullableType target).always
  keeps' := (keeps_nonNullableType target').always
  ends images graph other maps mirrors enough enough' passed passed' ended ended' := by
    have keeps' : Keeps runs.symbols runs.fresh.resolvedNames levels' .pass
        (nonNullableType target') := keeps_nonNullableType target'
    have continues := (keeps' other enough' rfl).grows.continues.trans ended'
    have members := members_seen runs.finished mirrors continues maps passed passed'
    revert ended ended'
    cases found : graph.unionMembers? target with
    | none =>
      cases found' : other.unionMembers? target' with
      | some _ =>
        rw [found, found'] at members
        cases members
      | none =>
        rw [nonNullableType_of_none found, nonNullableType_of_none found']
        exact fun _ _ => ⟨images, List.prefix_rfl, mirrors, maps⟩
    | some list =>
      cases found' : other.unionMembers? target' with
      | none =>
        rw [found, found'] at members
        cases members
      | some list' =>
        rw [found, found', Option.rel_some_some] at members
        have matching := nonNullable_matches members
        rw [nonNullableType_of_some found, nonNullableType_of_some found']
        revert matching
        generalize graph.nonNullable list = kept, other.nonNullable list' = kept'
        intro matching ended ended'
        have follows : Follows runs levels levels' (fun images => List.Forall₂ images.Maps kept kept')
            .pass (unionType kept) .pass (unionType kept') Images.Maps := follows_unionType kept kept'
        have union := follows.ends images graph other matching mirrors enough enough' rfl rfl
        cases matching with
        | nil => exact union ended ended'
        | cons head tail =>
          cases tail with
          | nil => exact ⟨images, List.prefix_rfl, mirrors, head⟩
          | cons _ _ => exact union ended ended'

/-! ### Filtering functions -/

/-- What is kept of matching properties matches. -/
theorem follows_keepProperties {wanted : Option String} {walk : Nat}
    (follows : ∀ id id', Follows runs levels levels' (fun images => images.Maps id id')
      (clearFilterWithin wanted walk id) (filterWithin wanted walk id)
      (clearFilterWithin wanted walk id') (filterWithin wanted walk id')
      fun images => Option.Rel images.Maps) (properties properties' : List Property) :
    Follows runs levels levels'
      (fun images => List.Forall₂ (Property.Matches images.Maps) properties properties')
      (clearKept (filterWithin wanted walk) (clearFilterWithin wanted walk) properties)
      (keepProperties (filterWithin wanted walk) properties)
      (clearKept (filterWithin wanted walk) (clearFilterWithin wanted walk) properties')
      (keepProperties (filterWithin wanted walk) properties')
      fun images => List.Forall₂ (Property.Matches images.Maps) := by
  have keeps : ∀ {watch levels check} (properties : List Property),
      Keeps runs.symbols watch levels check (keepProperties (filterWithin wanted walk) properties) :=
    fun properties => (keeps_keepProperties (keeps_filterWithin wanted walk) properties).always
  refine .assume (fun _ matching => matching.length_eq) (keeps _) (keeps _) fun same => ?_
  induction properties generalizing properties' with
  | nil =>
    cases properties' with
    | nil => exact .pure fun _ _ => .nil
    | cons _ _ => cases same
  | cons property rest ih =>
    cases properties' with
    | nil => cases same
    | cons property' rest' =>
      have others := ih rest' (Nat.succ.inj same)
      have first := (follows property.type property'.type).weaken
        fun images (matching : List.Forall₂ (Property.Matches images.Maps) (property :: rest)
          (property' :: rest')) => (List.forall₂_cons.mp matching).1.type
      rw [clearKept, clearKept, keepProperties, keepProperties]
      refine first.bind fun kept kept' => ?_
      -- a property is kept on both sides or on neither, since the results of `keep` are related
      apply Follows.option kept kept'
      · exact fun _ both => both.2
      · intro kept
        cases kept with
        | none => exact keeps _
        | some type => exact (keeps _).andThen fun _ => .pure _
      · intro kept'
        cases kept' with
        | none => exact keeps _
        | some type' => exact (keeps _).andThen fun _ => .pure _
      · exact others.weaken fun _ both => (List.forall₂_cons.mp both.1).2
      · intro type type'
        refine (others.weaken fun _ both => (List.forall₂_cons.mp both.1.1).2).andThen
          fun types types' => .pure fun images both => ?_
        obtain ⟨⟨⟨matching, _⟩, maps⟩, tail⟩ := both
        have head := (List.forall₂_cons.mp matching).1
        exact .cons ⟨head.name, head.optional, maps⟩ tail

/-- What a filter looks at first is the same on both sides. -/
structure FilterLooks (wanted : Option String) (graph other : Graph) (id id' : TypeId) : Prop where
  marked : graph.isMarkedReference id = other.isMarkedReference id'
  structured : graph.isStructured id = other.isStructured id'
  visibility : graph.isMarkedReference id = true → wanted ≠ none →
    graph.literalProperty? id "_visibility" = other.literalProperty? id' "_visibility"

theorem isKnown_of_knowsProperties {graph : Graph} {id : TypeId}
    (known : graph.knowsProperties id = true) : graph.isKnown id = true :=
  (Bool.and_eq_true_iff.mp known).1

/-- **Filters keep the same functions**, through any number of levels. -/
theorem follows_filterWithin (wanted : Option String) (walk : Nat) (id id' : TypeId) :
    Follows runs levels levels' (fun images => images.Maps id id')
      (clearFilterWithin wanted walk id) (filterWithin wanted walk id)
      (clearFilterWithin wanted walk id') (filterWithin wanted walk id')
      fun images => Option.Rel images.Maps := by
  induction walk generalizing id id' with
  | zero => exact .pure fun _ _ => .none
  | succ walk ih =>
    let test (id : TypeId) (seen : Graph) : Check := fun graph =>
      seen.isMarkedReference id || !seen.isStructured id ||
        clearKept (filterWithin wanted walk) (clearFilterWithin wanted walk) (seen.properties id) graph
    refine .lookAt (test id) (test id')
      (fun graph other => FilterLooks wanted graph other id id')
      (fun images graph other => List.Forall₂ (Property.Matches images.Maps) (graph.properties id)
        (other.properties id'))
      (keeps_filterWithin wanted (walk + 1) id).always
      (keeps_filterWithin wanted (walk + 1) id').always ?_ ?_
    · intro images graph other maps mirrors continues passed passed'
      rw [clearFilterWithin] at passed passed'
      obtain ⟨known, inside⟩ := Bool.and_eq_true_iff.mp passed
      obtain ⟨known', inside'⟩ := Bool.and_eq_true_iff.mp passed'
      have marked := isMarkedReference_eq mirrors continues maps known known'
      have structured := isStructured_eq mirrors continues maps (isKnown_of_knowsProperties known)
        (isKnown_of_knowsProperties known')
      refine ⟨⟨marked, structured, fun here asked => ?_⟩,
        properties_matches mirrors continues maps known known', ?_, ?_⟩
      · rw [if_pos here] at inside
        rw [if_pos (marked.symm.trans here)] at inside'
        cases wanted with
        | none => exact absurd rfl asked
        | some visibility => exact literalProperty?_eq mirrors continues maps _ inside inside'
      · show (graph.isMarkedReference id || _ || _) = true
        split at inside
        · rename_i here
          rw [here]
          rfl
        · rw [Bool.or_assoc, inside, Bool.or_true]
      · show (other.isMarkedReference id' || _ || _) = true
        split at inside'
        · rename_i here
          rw [here]
          rfl
        · rw [Bool.or_assoc, inside', Bool.or_true]
    · intro graph other looks
      rw [← looks.marked, ← looks.structured]
      cases marked : graph.isMarkedReference id with
      | true =>
        rw [if_pos rfl, if_pos rfl]
        cases wanted with
        | none => exact .pure fun _ both => .some both.1
        | some visibility =>
          refine .pure fun _ both => ?_
          rw [looks.visibility marked nofun]
          split
          · exact .some both.1
          · exact .none
      | false =>
        rw [if_neg Bool.false_ne_true, if_neg Bool.false_ne_true]
        cases structured : graph.isStructured id with
        | false => exact .pure fun _ _ => .none
        | true =>
          have alone : ∀ place seen, Graph.isMarkedReference seen place = false →
              seen.isStructured place = true → test place seen =
                clearKept (filterWithin wanted walk) (clearFilterWithin wanted walk)
                  (seen.properties place) := by
            intro place seen unmarked here
            funext graph
            show (seen.isMarkedReference place || !seen.isStructured place || _) = _
            rw [unmarked, here]
            rfl
          rw [alone id graph marked structured,
            alone id' other (looks.marked.symm.trans marked) (looks.structured.symm.trans structured)]
          have kept := (follows_keepProperties ih (graph.properties id) (other.properties id')).weaken
            fun images (both : images.Maps id id' ∧ _) => both.2
          refine kept.andThen fun types types' => .ite (fun _ both => ?_) (.pure fun _ _ => .none) ?_
          · rw [isEmpty_eq_of_forall₂ both.2]
          · have object : Follows runs levels levels' (fun images => List.Forall₂
                (Property.Matches images.Maps) types types') .pass (objectType ⟨types, none⟩) .pass
                (objectType ⟨types', none⟩) Images.Maps :=
              (follows_objectType _ _).weaken fun _ matching => ⟨matching, .none⟩
            exact (object.weaken fun _ both => both.2).andThen fun _ _ => .pure fun _ both =>
              .some both.2

/-- The functions of an interface under a filter. -/
theorem follows_filteredType (api api' filter filter' : TypeId) :
    Follows runs levels levels'
      (fun images => images.Maps api api' ∧ images.Maps filter filter')
      (clearFiltered api filter) (filteredType api filter)
      (clearFiltered api' filter') (filteredType api' filter') Images.Maps := by
  let test (api filter : TypeId) (seen : Graph) : Check := fun graph =>
    !seen.isStructured api ||
      clearFilterWithin (seen.literalProperty? filter "_visibility") (walkDepth + 1) api graph
  refine .lookAt (test api filter) (test api' filter')
    (fun graph other => graph.isStructured api = other.isStructured api' ∧
      (graph.isStructured api = true → graph.literalProperty? filter "_visibility" =
        other.literalProperty? filter' "_visibility"))
    (fun _ _ _ => True) (keeps_filteredType api filter).always
    (keeps_filteredType api' filter').always ?_ ?_
  · intro images graph other maps mirrors continues passed passed'
    rw [clearFiltered] at passed passed'
    obtain ⟨known, inside⟩ := Bool.and_eq_true_iff.mp passed
    obtain ⟨known', inside'⟩ := Bool.and_eq_true_iff.mp passed'
    have structured := isStructured_eq mirrors continues maps.1 known known'
    refine ⟨⟨structured, fun here => ?_⟩, trivial, ?_, ?_⟩
    · rw [here] at inside
      rw [← structured, here] at inside'
      exact literalProperty?_eq mirrors continues maps.2 _ (Bool.and_eq_true_iff.mp inside).1
        (Bool.and_eq_true_iff.mp inside').1
    · show (!graph.isStructured api || _) = true
      rcases Bool.or_eq_true_iff.mp inside with plain | both
      · rw [plain, Bool.true_or]
      · rw [(Bool.and_eq_true_iff.mp both).2, Bool.or_true]
    · show (!other.isStructured api' || _) = true
      rcases Bool.or_eq_true_iff.mp inside' with plain | both
      · rw [plain, Bool.true_or]
      · rw [(Bool.and_eq_true_iff.mp both).2, Bool.or_true]
  · rintro graph other ⟨structured, visibility⟩
    rw [← structured]
    cases here : graph.isStructured api with
    | false => exact follows_unresolvedType
    | true =>
      have alone : ∀ place filter seen, Graph.isStructured seen place = true →
          test place filter seen =
            clearFilterWithin (seen.literalProperty? filter "_visibility") (walkDepth + 1) place := by
        intro place filter seen structured
        funext graph
        show (!seen.isStructured place || _) = _
        rw [structured]
        rfl
      rw [alone api filter graph here, alone api' filter' other (structured.symm.trans here),
        visibility here]
      have kept : Follows runs levels levels'
          (fun images => images.Maps api api' ∧ images.Maps filter filter')
          (clearFilterWithin (other.literalProperty? filter' "_visibility") (walkDepth + 1) api)
          (filterWithin (other.literalProperty? filter' "_visibility") (walkDepth + 1) api)
          (clearFilterWithin (other.literalProperty? filter' "_visibility") (walkDepth + 1) api')
          (filterWithin (other.literalProperty? filter' "_visibility") (walkDepth + 1) api')
          fun images => Option.Rel images.Maps :=
        (follows_filterWithin _ _ api api').weaken fun _ both => both.1
      refine (kept.weaken fun _ both => both.1).andThen fun found found' => ?_
      -- the filter finds something on both sides or on neither
      apply Follows.option found found'
      · exact fun _ both => both.2
      · intro found
        cases found with
        | none => exact keeps_allocate Kind.noConfusion _
        | some id => exact .pure id
      · intro found'
        cases found' with
        | none => exact keeps_allocate Kind.noConfusion _
        | some id' => exact .pure id'
      · exact follows_allocate (fun _ _ => .object ⟨.nil, .none⟩) Kind.noConfusion Kind.noConfusion
      · exact fun _ _ => .pure fun _ both => both.2

/-! ### Types that no file declares -/

theorem providedType_single (name : String) (target : TypeId) :
    providedType name [target] =
      if name = "Array" ∨ name = "ReadonlyArray" then arrayType target
      else if name = "NonNullable" then nonNullableType target
      else match PresenceChange.ofName? name with
        | some change => presenceType name change target
        | none => get >>= fun graph => unresolvedType (graph.referenceText name [target]) := by
  by_cases list : name = "Array" ∨ name = "ReadonlyArray"
  · rcases list with rfl | rfl <;> rfl
  · by_cases present : name = "NonNullable"
    · subst present
      rfl
    · rw [if_neg list, if_neg present]
      unfold providedType
      split
      · exact absurd (.inl rfl) list
      · exact absurd (.inr rfl) list
      · rename_i pair
        cases pair
      · exact absurd rfl present
      · rename_i pair
        cases pair
      · rename_i single
        cases single
        rfl
      · rename_i none _ _ _ _ _
        exact (none target rfl).elim

theorem clearProvided_single (symbols : Symbols) (name : String) (target : TypeId) :
    clearProvided symbols name [target] =
      if name = "Array" ∨ name = "ReadonlyArray" then Check.pass
      else if name = "NonNullable" then fun graph => graph.showsMembers symbols target
      else match PresenceChange.ofName? name with
        | some _ => fun graph => graph.knowsProperties target
        | none => Check.pass := by
  by_cases list : name = "Array" ∨ name = "ReadonlyArray"
  · rcases list with rfl | rfl <;> rfl
  · by_cases present : name = "NonNullable"
    · subst present
      rfl
    · rw [if_neg list, if_neg present]
      unfold clearProvided
      split
      · exact absurd (.inl rfl) list
      · exact absurd (.inr rfl) list
      · rename_i pair
        cases pair
      · exact absurd rfl present
      · rename_i pair
        cases pair
      · rename_i single
        cases single
        rfl
      · rename_i none _ _ _ _ _
        exact (none target rfl).elim

theorem providedType_pair (name : String) (first second : TypeId) :
    providedType name [first, second] =
      if name = "Record" then recordType first second
      else if name = "FilterApi" then filteredType first second
      else get >>= fun graph => unresolvedType (graph.referenceText name [first, second]) := by
  by_cases mapping : name = "Record"
  · subst mapping
    rfl
  · by_cases filtering : name = "FilterApi"
    · subst filtering
      rfl
    · rw [if_neg mapping, if_neg filtering]
      unfold providedType
      split
      · rename_i single
        cases single
      · rename_i single
        cases single
      · exact absurd rfl mapping
      · rename_i single
        cases single
      · exact absurd rfl filtering
      · rename_i single
        cases single
      · rfl

theorem clearProvided_pair (symbols : Symbols) (name : String) (first second : TypeId) :
    clearProvided symbols name [first, second] =
      if name = "Record" then fun graph => graph.showsMembers symbols first
      else if name = "FilterApi" then clearFiltered first second
      else Check.pass := by
  by_cases mapping : name = "Record"
  · subst mapping
    rfl
  · by_cases filtering : name = "FilterApi"
    · subst filtering
      rfl
    · rw [if_neg mapping, if_neg filtering]
      unfold clearProvided
      split
      · rename_i single
        cases single
      · rename_i single
        cases single
      · exact absurd rfl mapping
      · rename_i single
        cases single
      · exact absurd rfl filtering
      · rename_i single
        cases single
      · rfl

/-- Without arguments, or with more than two, a name that no file declares is unresolved. -/
theorem providedType_other (name : String) {arguments : List TypeId} (single : arguments.length ≠ 1)
    (pair : arguments.length ≠ 2) :
    providedType name arguments =
      get >>= fun graph => unresolvedType (graph.referenceText name arguments) := by
  unfold providedType
  split
  · exact absurd rfl single
  · exact absurd rfl single
  · exact absurd rfl pair
  · exact absurd rfl single
  · exact absurd rfl pair
  · exact absurd rfl single
  · rfl

/-- **A name that no file declares**, with arguments that match. -/
theorem follows_providedType (name : String) (arguments arguments' : List TypeId) :
    Follows runs levels levels' (fun images => List.Forall₂ images.Maps arguments arguments')
      (clearProvided runs.symbols name arguments) (providedType name arguments)
      (clearProvided runs.symbols name arguments') (providedType name arguments') Images.Maps := by
  have unresolved : ∀ {before check check'},
      Follows runs levels levels' before check
        (get >>= fun graph => unresolvedType (graph.referenceText name arguments)) check'
        (get >>= fun graph => unresolvedType (graph.referenceText name arguments')) Images.Maps :=
    .read fun _ _ => follows_unresolvedType
  refine .assume (fun _ matching => matching.length_eq) (keeps_providedType name arguments).always
    (keeps_providedType name arguments').always fun same => ?_
  by_cases single : arguments.length = 1
  · obtain ⟨target, rfl⟩ := List.length_eq_one_iff.mp single
    obtain ⟨target', rfl⟩ := List.length_eq_one_iff.mp (same.symm.trans single)
    have maps : ∀ images : Images, List.Forall₂ images.Maps [target] [target'] →
        images.Maps target target' := fun _ matching => (List.forall₂_cons.mp matching).1
    rw [providedType_single, providedType_single, clearProvided_single, clearProvided_single]
    split
    · exact (follows_arrayType target target').weaken maps
    · split
      · exact (follows_nonNullableType target target').weaken maps
      · cases PresenceChange.ofName? name with
        | some change => exact (follows_presenceType name change target target').weaken maps
        | none => exact unresolved
  · by_cases pair : arguments.length = 2
    · obtain ⟨first, second, rfl⟩ := List.length_eq_two.mp pair
      obtain ⟨first', second', rfl⟩ := List.length_eq_two.mp (same.symm.trans pair)
      have maps : ∀ images : Images, List.Forall₂ images.Maps [first, second] [first', second'] →
          images.Maps first first' ∧ images.Maps second second' := fun _ matching =>
        ⟨(List.forall₂_cons.mp matching).1, (List.forall₂_cons.mp (List.forall₂_cons.mp matching).2).1⟩
      rw [providedType_pair, providedType_pair, clearProvided_pair, clearProvided_pair]
      split
      · exact (follows_recordType first first' second second').weaken maps
      · split
        · exact (follows_filteredType first first' second second').weaken maps
        · exact unresolved
    · rw [providedType_other name single pair,
        providedType_other name (same ▸ single) (same ▸ pair)]
      exact unresolved

end Framework

end SwiftBindings.TypeGraph
