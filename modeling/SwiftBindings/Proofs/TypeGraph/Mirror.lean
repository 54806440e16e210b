/-
**A graph mirrored in another.**

Two runs over the same declarations build graphs with different places. `Images` lists, for the places
of a first graph in order, the places of the same types in a second one. `Graph.Mirrors` says that the
second graph is finished and that the first one, as far as it has come, is the same under this
renaming: each type whose structure is known has the structure of its image, and what the first graph
remembers, the second remembers under the image.

What can be seen of a type is then the same on both sides: its properties (`properties_matches`), the
type of further properties, its alternatives, its keys. Each of these lemmas needs the tests of both
sides, since a type that is unfinished shows less than its image.
-/

import Mathlib.Data.List.Forall2
import SwiftBindings.Proofs.Related
import SwiftBindings.Proofs.TypeGraph.Run

namespace SwiftBindings.TypeGraph

open Declared

/-! ### Images of places -/

/-- The images of the places of a graph, in order. -/
abbrev Images := List TypeId

/-- The image of the first place is the second. -/
def Images.Maps (images : Images) (first second : TypeId) : Prop :=
  images[first]? = some second

theorem Images.Maps.unique {images : Images} {first second other : TypeId}
    (maps : images.Maps first second) (maps' : images.Maps first other) : second = other :=
  Option.some.inj (maps.symm.trans maps')

/-- What is said of images stays true when there are more. -/
class Stable (property : Images → Prop) : Prop where
  kept : ∀ {images more : Images}, images <+: more → property images → property more

theorem Images.Maps.mono {images more : Images} (extended : images <+: more)
    {first second : TypeId} (maps : images.Maps first second) : more.Maps first second := by
  obtain ⟨added, rfl⟩ := extended
  rw [Images.Maps, List.getElem?_append_left (List.getElem?_eq_some_iff.mp maps).1]
  exact maps

instance (first second : TypeId) : Stable fun images => images.Maps first second :=
  ⟨fun extended maps => maps.mono extended⟩

instance (property : Prop) : Stable fun _ => property := ⟨fun _ holds => holds⟩

instance {left right : Images → Prop} [Stable left] [Stable right] :
    Stable fun images => left images ∧ right images :=
  ⟨fun extended both => ⟨Stable.kept extended both.1, Stable.kept extended both.2⟩⟩

instance (firsts seconds : List TypeId) :
    Stable fun images => List.Forall₂ images.Maps firsts seconds :=
  ⟨fun extended maps => maps.imp fun _ _ => Images.Maps.mono extended⟩

instance (first second : Option TypeId) : Stable fun images => Option.Rel images.Maps first second :=
  ⟨fun extended maps => by
    cases maps with
    | none => exact .none
    | some maps => exact .some (maps.mono extended)⟩

theorem Images.forall₂_unique {images : Images} {firsts seconds others : List TypeId}
    (maps : List.Forall₂ images.Maps firsts seconds)
    (maps' : List.Forall₂ images.Maps firsts others) : seconds = others := by
  induction maps generalizing others with
  | nil => exact (List.forall₂_nil_left_iff.mp maps').symm
  | cons head _ ih =>
    cases maps' with
    | cons head' tail' => rw [head.unique head', ih tail']

/-! ### Structures that match -/

/-- Two properties are the same but for the places of their types. -/
structure Property.Matches (relate : TypeId → TypeId → Prop) (first second : Property) :
    Prop where
  name : first.name = second.name
  optional : first.optional = second.optional
  type : relate first.type second.type

/-- Two object shapes are the same but for the places of their types. -/
structure ObjectShape.Matches (relate : TypeId → TypeId → Prop) (first second : ObjectShape) :
    Prop where
  properties : List.Forall₂ (Property.Matches relate) first.properties second.properties
  index : Option.Rel relate first.index second.index

/-- Two known structures are the same but for the places of their parts. -/
inductive Kind.Matches (relate : TypeId → TypeId → Prop) : Kind → Kind → Prop where
  | primitive (keyword : Keyword) : Kind.Matches relate (.primitive keyword) (.primitive keyword)
  | stringLiteral (value : String) :
    Kind.Matches relate (.stringLiteral value) (.stringLiteral value)
  | numberLiteral (text : String) : Kind.Matches relate (.numberLiteral text) (.numberLiteral text)
  | booleanLiteral (value : Bool) :
    Kind.Matches relate (.booleanLiteral value) (.booleanLiteral value)
  | array {first second : TypeId} (element : relate first second) :
    Kind.Matches relate (.array first) (.array second)
  | tuple {firsts seconds : List TypeId} (elements : List.Forall₂ relate firsts seconds) :
    Kind.Matches relate (.tuple firsts) (.tuple seconds)
  | union {firsts seconds : List TypeId} (members : List.Forall₂ relate firsts seconds) :
    Kind.Matches relate (.union firsts) (.union seconds)
  | intersection {firsts seconds : List TypeId} (parts : List.Forall₂ relate firsts seconds) :
    Kind.Matches relate (.intersection firsts) (.intersection seconds)
  | object {first second : ObjectShape} (shape : first.Matches relate second) :
    Kind.Matches relate (.object first) (.object second)
  | unresolved : Kind.Matches relate .unresolved .unresolved
  | opaqueType : Kind.Matches relate .opaqueType .opaqueType

section Mono

variable {relate other : TypeId → TypeId → Prop}
  (implies : ∀ first second, relate first second → other first second)

include implies

theorem Property.Matches.mono {first second : Property} (matching : first.Matches relate second) :
    first.Matches other second :=
  ⟨matching.name, matching.optional, implies _ _ matching.type⟩

theorem ObjectShape.Matches.mono {first second : ObjectShape}
    (matching : first.Matches relate second) : first.Matches other second where
  properties := matching.properties.imp fun _ _ => Property.Matches.mono implies
  index := by
    have index := matching.index
    revert index
    generalize first.index = left, second.index = right
    rintro (related | _)
    · exact .some (implies _ _ related)
    · exact .none

theorem Kind.Matches.mono {first second : Kind} (matching : first.Matches relate second) :
    first.Matches other second := by
  cases matching with
  | primitive keyword => exact .primitive keyword
  | stringLiteral value => exact .stringLiteral value
  | numberLiteral text => exact .numberLiteral text
  | booleanLiteral value => exact .booleanLiteral value
  | array element => exact .array (implies _ _ element)
  | tuple elements => exact .tuple (elements.imp implies)
  | union members => exact .union (members.imp implies)
  | intersection parts => exact .intersection (parts.imp implies)
  | object shape => exact .object (shape.mono implies)
  | unresolved => exact .unresolved
  | opaqueType => exact .opaqueType

end Mono

instance (first second : ObjectShape) : Stable fun images => first.Matches images.Maps second :=
  ⟨fun extended matching => matching.mono fun _ _ => Images.Maps.mono extended⟩

instance (firsts seconds : List Property) :
    Stable fun images => List.Forall₂ (Property.Matches images.Maps) firsts seconds :=
  ⟨fun extended matching => matching.imp fun _ _ =>
    Property.Matches.mono fun _ _ => Images.Maps.mono extended⟩

/-- Nothing is looked for in the structure but that there is nothing to see. -/
def Kind.isPlain : Kind → Bool
  | .primitive _ | .stringLiteral _ | .union _ => false
  | _ => true

theorem Kind.Matches.isPlain_eq {relate : TypeId → TypeId → Prop} {first second : Kind}
    (matching : first.Matches relate second) : first.isPlain = second.isPlain := by
  cases matching <;> rfl

/-- Two structures match, or there is nothing to see in either. -/
def Kind.SeenAs (relate : TypeId → TypeId → Prop) (first second : Kind) : Prop :=
  first.Matches relate second ∨ (first.isPlain = true ∧ second.isPlain = true)

/-! ### A graph and the finished one -/

/-- The finished graph of a run, with all that it remembers resolved in that run. -/
structure Graph.Finished (symbols : Symbols) (watch : Watch) (graph : Graph) : Prop where
  recorded : graph.Recorded symbols watch
  known : ∀ id, graph.kind id ≠ .pending

theorem Graph.Finished.instance_run {symbols : Symbols} {watch : Watch} {graph : Graph}
    (finished : graph.Finished symbols watch) {declared : Instance} {id : TypeId}
    (found : graph.instances.lookup declared = some id) :
    ∃ run : InstanceRun symbols watch declared id,
      run.body.2.Continues graph ∧ graph.HasKind id run.body.1 := by
  rcases finished.recorded.instances declared id found with pending | run
  · exact absurd pending (finished.known id)
  · exact run

/-- The first graph, as far as it has come, is the second under the images of its places. -/
structure Graph.Mirrors (images : Images) (graph final : Graph) : Prop where
  size : images.length = graph.nodes.size
  method : images.Maps methodType methodType
  kinds : ∀ first second, images.Maps first second → graph.isKnown first = true →
    (graph.kind first).Matches images.Maps (final.kind second)
  keywords : ∀ keyword first, graph.keywords.lookup keyword = some first →
    ∃ second, images.Maps first second ∧ final.keywords.lookup keyword = some second
  literals : ∀ value first, graph.literals.lookup value = some first →
    ∃ second, images.Maps first second ∧ final.literals.lookup value = some second
  instances : ∀ declared first, graph.instances.lookup declared = some first →
    ∃ arguments second, List.Forall₂ images.Maps declared.arguments arguments ∧
      images.Maps first second ∧
      final.instances.lookup ⟨declared.name, arguments⟩ = some second
  values : ∀ name first, graph.values.lookup name = some first →
    ∃ second, images.Maps first second ∧ final.values.lookup name = some second

/-! ### What is seen of structures -/

section Seen

variable {relate : TypeId → TypeId → Prop} {graph other : Graph} {first second : TypeId}
  (seen : (graph.kind first).SeenAs relate (other.kind second))

include seen

theorem unionMembers?_seen :
    Option.Rel (List.Forall₂ relate) (graph.unionMembers? first) (other.unionMembers? second) := by
  rw [Graph.unionMembers?, Graph.unionMembers?]
  generalize graph.kind first = left, other.kind second = right at seen
  rcases seen with matching | ⟨plain, plain'⟩
  · cases matching with
    | union members => exact .some members
    | _ => exact .none
  · cases left with
    | union _ => cases plain
    | _ =>
      cases right with
      | union _ => cases plain'
      | _ => exact .none

theorem primitive_seen (keyword : Keyword) :
    graph.kind first = .primitive keyword ↔ other.kind second = .primitive keyword := by
  generalize graph.kind first = left, other.kind second = right at seen
  rcases seen with matching | ⟨plain, plain'⟩
  · cases matching with
    | primitive _ => exact Iff.rfl
    | _ => exact ⟨Kind.noConfusion, Kind.noConfusion⟩
  · constructor
    · rintro rfl
      cases plain
    · rintro rfl
      cases plain'

theorem stringValue?_seen : graph.stringValue? first = other.stringValue? second := by
  rw [Graph.stringValue?, Graph.stringValue?]
  generalize graph.kind first = left, other.kind second = right at seen
  rcases seen with matching | ⟨plain, plain'⟩
  · cases matching <;> rfl
  · cases left with
    | stringLiteral _ => cases plain
    | _ =>
      cases right with
      | stringLiteral _ => cases plain'
      | _ => rfl

end Seen

/-! ### Types that show what they will be -/

theorem Graph.isPlain_of_not_known {graph : Graph} {id : TypeId}
    (unknown : ¬graph.isKnown id = true) : (graph.kind id).isPlain = true := by
  rw [Graph.isKnown] at unknown
  rw [Graph.kind]
  cases found : graph.nodes[id]? with
  | none => rfl
  | some node =>
    rw [found] at unknown
    have pending : node.kind = .pending := by
      by_contra known
      exact unknown (bne_iff_ne.mpr known)
    show node.kind.isPlain = true
    rw [pending]
    rfl

/-- A new node is no node of before. -/
theorem aliasKind_allocate {kind : Kind} (known : kind ≠ .pending) (text : String) {graph : Graph}
    {id : TypeId} (inside : id < graph.nodes.size) :
    (allocate kind text graph).2.aliasKind id (allocate kind text graph).1 = kind := by
  have has := (allocate_hasKind kind text graph).kind_eq
  rw [Graph.aliasKind, has, if_neg known, if_neg]
  exact (Nat.ne_of_lt inside).symm

section Structural

variable {symbols : Symbols} {watch : Watch} {levels : Nat} {deeper : Deeper} {clear : Clear}
  (further : deeper.Keeps symbols watch levels clear) {own : Bool} {scope : Scope} {graph : Graph}
  (enough : symbols.room graph < levels)

include further enough

/-- A type that is written as an object, a list or an intersection is a new node. -/
theorem resolve_structural {type : TypeExpr} (structural : (Body.typeAlias type).isStructural = true)
    (passed : clearType symbols deeper clear own scope type graph = true) :
    ∃ kind text after, resolve symbols deeper scope type graph = allocate kind text after ∧
      graph.GrowsTo after ∧ kind.isPlain = true ∧ kind ≠ .pending := by
  cases type with
  | object members =>
    rw [clearType] at passed
    rw [resolve]
    exact ⟨_, _, _, rfl, (keeps_resolveMembers further own scope _ members graph enough passed).grows,
      rfl, Kind.noConfusion⟩
  | array element =>
    rw [clearType] at passed
    rw [resolve]
    exact ⟨_, _, _, rfl, (keeps_resolve further own scope element graph enough passed).grows, rfl,
      Kind.noConfusion⟩
  | tuple elements =>
    rw [clearType] at passed
    rw [resolve]
    exact ⟨_, _, _, rfl, (keeps_resolveAll further own scope elements graph enough passed).grows, rfl,
      Kind.noConfusion⟩
  | intersection members =>
    rw [clearType] at passed
    rw [resolve]
    exact ⟨_, _, _, rfl, (keeps_resolveAll further own scope members graph enough passed).grows, rfl,
      Kind.noConfusion⟩
  | _ => cases structural

end Structural

/-- A type that is declared as an object, a list or an intersection is one. -/
theorem InstanceRun.isPlain_body {symbols : Symbols} {watch : Watch} {declared : Instance}
    {id : TypeId} (run : InstanceRun symbols watch declared id)
    (structural : run.definition.body.isStructural = true) : run.body.1.isPlain = true := by
  have further := Deeper.keeps_ofLevels symbols watch run.levels
  have body := run.bound_clear
  rw [InstanceRun.body]
  cases shape : run.definition.body with
  | interface bases members => rfl
  | typeAlias type =>
    rw [shape] at structural body
    obtain ⟨passed, _⟩ := Bool.and_eq_true_iff.mp body
    obtain ⟨kind, text, after, resolved, grows, plain, known⟩ :=
      resolve_structural further (run.bound_enough further) structural passed
    have bound := (run.bound_advances further).grows.size_le
    have inside : id < after.nodes.size :=
      Nat.lt_of_lt_of_le run.unfinished.lt_size (Nat.le_trans bound grows.size_le)
    show (Graph.aliasKind (resolve symbols _ run.bound.1 type run.bound.2).2 id
      (resolve symbols _ run.bound.1 type run.bound.2).1).isPlain = true
    rw [resolved, aliasKind_allocate known text inside]
    exact plain

/-- What shows what it will be is known, or there is nothing to see in it in the end. -/
theorem Graph.Finished.shows_cases {symbols : Symbols} {watch : Watch} {graph final : Graph}
    (finished : final.Finished symbols watch) {id : TypeId} (shows : graph.shows symbols id = true) :
    graph.isKnown id = true ∨ ((graph.kind id).isPlain = true ∧
      ∃ declared, graph.instances.lookup declared = some id ∧
        ∀ arguments other, final.instances.lookup ⟨declared.name, arguments⟩ = some other →
          (final.kind other).isPlain = true) := by
  by_cases known : graph.isKnown id = true
  · exact .inl known
  · rw [Graph.shows, Bool.or_eq_true, or_iff_right known] at shows
    obtain ⟨entry, _, both⟩ := List.any_eq_true.mp shows
    obtain ⟨found, structural⟩ := Bool.and_eq_true_iff.mp both
    refine .inr ⟨isPlain_of_not_known known, entry.1, beq_iff_eq.mp found, ?_⟩
    intro arguments other held
    obtain ⟨run, _, has⟩ := finished.instance_run held
    have declares : symbols.type? entry.1.name = some run.definition := run.declares
    rw [declares] at structural
    rw [has.kind_eq]
    exact run.isPlain_body structural

section Looks

variable {symbols : Symbols} {watch : Watch} {images : Images} {graph other final : Graph}
  (finished : final.Finished symbols watch) (mirrors : graph.Mirrors images final)
  (continues : other.Continues final) {first second : TypeId} (maps : images.Maps first second)

include mirrors continues maps

/-- Known types match. -/
theorem kind_matches (known : graph.isKnown first = true) (known' : other.isKnown second = true) :
    (graph.kind first).Matches images.Maps (other.kind second) := by
  rw [← continues.kind_eq known']
  exact mirrors.kinds first second maps known

include finished in
/-- What is seen of types that show what they will be is the same. -/
theorem kind_seenAs (shows : graph.shows symbols first = true)
    (shows' : other.shows symbols second = true) :
    (graph.kind first).SeenAs images.Maps (other.kind second) := by
  have left : (graph.kind first).SeenAs images.Maps (final.kind second) := by
    rcases finished.shows_cases shows with known | ⟨plain, declared, found, later⟩
    · exact .inl (mirrors.kinds first second maps known)
    · obtain ⟨arguments, place, _, maps', held⟩ := mirrors.instances declared first found
      cases maps.unique maps'
      exact .inr ⟨plain, later arguments second held⟩
  rcases finished.shows_cases shows' with known | ⟨plain, declared, found, later⟩
  · rw [← continues.kind_eq known]
    exact left
  · have plain' := later declared.arguments second (continues.instances _ _ found)
    rcases left with matching | ⟨here, _⟩
    · exact .inr ⟨matching.isPlain_eq.trans plain', plain⟩
    · exact .inr ⟨here, plain⟩

include finished in
/-- The alternatives that members of a union bring are the same. -/
theorem alternatives_matches (shows : graph.shows symbols first = true)
    (shows' : other.shows symbols second = true) :
    List.Forall₂ images.Maps (graph.alternatives first) (other.alternatives second) := by
  have members := unionMembers?_seen (kind_seenAs finished mirrors continues maps shows shows')
  rw [Graph.alternatives, Graph.alternatives]
  revert members
  generalize graph.unionMembers? first = left, other.unionMembers? second = right
  rintro (members | _)
  · exact members
  · exact .cons maps .nil

end Looks

section Properties

variable {symbols : Symbols} {watch : Watch} {images : Images} {graph other final : Graph}
  (finished : final.Finished symbols watch) (mirrors : graph.Mirrors images final)
  (continues : other.Continues final)

/-! ### Members of unions -/

include finished mirrors continues in
/-- The members of a union are seen as the same. -/
theorem members_seen {first second : TypeId} (maps : images.Maps first second)
    (shows : graph.showsMembers symbols first = true)
    (shows' : other.showsMembers symbols second = true) :
    Option.Rel (List.Forall₂ fun member image => images.Maps member image ∧
        (graph.kind member).SeenAs images.Maps (other.kind image))
      (graph.unionMembers? first) (other.unionMembers? second) := by
  obtain ⟨here, inside⟩ := Bool.and_eq_true_iff.mp shows
  obtain ⟨here', inside'⟩ := Bool.and_eq_true_iff.mp shows'
  have members := unionMembers?_seen (kind_seenAs finished mirrors continues maps here here')
  revert inside inside' members
  generalize graph.unionMembers? first = left, other.unionMembers? second = right
  rintro inside inside' (members | _)
  · refine .some ?_
    dsimp only [Option.getD_some] at inside inside'
    induction members with
    | nil => exact .nil
    | cons head tail ih =>
      rw [List.all_cons] at inside inside'
      obtain ⟨one, rest⟩ := Bool.and_eq_true_iff.mp inside
      obtain ⟨one', rest'⟩ := Bool.and_eq_true_iff.mp inside'
      exact .cons ⟨head, kind_seenAs finished mirrors continues head one one'⟩ (ih rest rest')
  · exact .none

include finished mirrors continues in
/-- A type of keys lists the same keys. -/
theorem literalKeys?_eq {first second : TypeId} (maps : images.Maps first second)
    (shows : graph.showsMembers symbols first = true)
    (shows' : other.showsMembers symbols second = true) :
    graph.literalKeys? first = other.literalKeys? second := by
  have members := members_seen finished mirrors continues maps shows shows'
  have seen := kind_seenAs finished mirrors continues maps (Bool.and_eq_true_iff.mp shows).1
    (Bool.and_eq_true_iff.mp shows').1
  rw [Graph.unionMembers?, Graph.unionMembers?] at members
  rw [Graph.literalKeys?, Graph.literalKeys?]
  revert seen members
  generalize graph.kind first = left, other.kind second = right
  rintro members (matching | ⟨plain, plain'⟩)
  · cases matching with
    | union parts =>
      clear parts
      obtain (members | _) := members
      dsimp only
      induction members with
      | nil => rfl
      | cons head tail ih => rw [List.mapM_cons, List.mapM_cons, stringValue?_seen head.2, ih]
    | _ => rfl
  · cases left with
    | stringLiteral _ => cases plain
    | union _ => cases plain
    | _ =>
      cases right with
      | stringLiteral _ => cases plain'
      | union _ => cases plain'
      | _ => rfl

/-! ### Properties -/

theorem mergeProperties_matches {relate : TypeId → TypeId → Prop}
    {firsts seconds added more : List Property}
    (matching : List.Forall₂ (Property.Matches relate) firsts seconds)
    (adding : List.Forall₂ (Property.Matches relate) added more) :
    List.Forall₂ (Property.Matches relate) (mergeProperties firsts added)
      (mergeProperties seconds more) := by
  have any_eq : ∀ {firsts seconds : List Property} (name : String),
      List.Forall₂ (Property.Matches relate) firsts seconds →
        (firsts.any fun other => other.name == name) =
          seconds.any fun other => other.name == name := by
    intro firsts seconds name matching
    induction matching with
    | nil => rfl
    | cons head _ ih => rw [List.any_cons, List.any_cons, head.name, ih]
  rw [mergeProperties, mergeProperties]
  induction adding generalizing firsts seconds with
  | nil => exact matching
  | cons head _ ih =>
    rw [List.foldl_cons, List.foldl_cons]
    refine ih ?_
    rw [head.name, any_eq _ matching]
    split
    · exact matching
    · exact List.rel_append matching (.cons head .nil)

theorem upsertProperty_matches {relate : TypeId → TypeId → Prop}
    {firsts seconds : List Property} {property image : Property}
    (matching : List.Forall₂ (Property.Matches relate) firsts seconds)
    (adding : property.Matches relate image) :
    List.Forall₂ (Property.Matches relate) (upsertProperty firsts property)
      (upsertProperty seconds image) := by
  induction matching with
  | nil => exact .cons adding .nil
  | cons head tail ih =>
    rw [upsertProperty, upsertProperty, head.name, adding.name]
    split
    · exact .cons adding tail
    · exact .cons head ih

theorem foldl_upsertProperty_matches {relate : TypeId → TypeId → Prop}
    {firsts seconds added more : List Property}
    (matching : List.Forall₂ (Property.Matches relate) firsts seconds)
    (adding : List.Forall₂ (Property.Matches relate) added more) :
    List.Forall₂ (Property.Matches relate) (added.foldl upsertProperty firsts)
      (more.foldl upsertProperty seconds) := by
  induction adding generalizing firsts seconds with
  | nil => exact matching
  | cons head _ ih => exact ih (upsertProperty_matches matching head)

/-- Members that primitive types inherit are methods on both sides. -/
theorem inherited_matches {relate : TypeId → TypeId → Prop} (method : relate methodType methodType)
    (names : List String) :
    List.Forall₂ (Property.Matches relate) (inherited names) (inherited names) := by
  rw [inherited, List.forall₂_map_left_iff, List.forall₂_map_right_iff, List.forall₂_same]
  exact fun name _ => ⟨rfl, rfl, method⟩

include mirrors continues

/-- The properties of a type are the same through any number of levels. -/
theorem propertiesWithin_matches (levels : Nat) {first second : TypeId}
    (maps : images.Maps first second) (known : graph.knowsWithin levels first = true)
    (known' : other.knowsWithin levels second = true) :
    List.Forall₂ (Property.Matches images.Maps) (graph.propertiesWithin levels first)
      (other.propertiesWithin levels second) := by
  induction levels generalizing first second with
  | zero => exact .nil
  | succ levels ih =>
    rw [Graph.knowsWithin] at known known'
    obtain ⟨here, inside⟩ := Bool.and_eq_true_iff.mp known
    obtain ⟨here', inside'⟩ := Bool.and_eq_true_iff.mp known'
    have matching := kind_matches mirrors continues maps here here'
    rw [Graph.propertiesWithin, Graph.propertiesWithin]
    revert matching inside inside'
    generalize graph.kind first = left, other.kind second = right
    rintro inside inside' matching
    cases matching with
    | object shape => exact shape.properties
    | primitive keyword =>
      cases keyword with
      | string => exact inherited_matches mirrors.method _
      | number => exact inherited_matches mirrors.method _
      | boolean => exact inherited_matches mirrors.method _
      | _ => exact .nil
    | stringLiteral _ => exact inherited_matches mirrors.method _
    | numberLiteral _ => exact inherited_matches mirrors.method _
    | booleanLiteral _ => exact inherited_matches mirrors.method _
    | intersection parts =>
      dsimp only at inside inside' ⊢
      have fold : ∀ {firsts seconds : List TypeId}, List.Forall₂ images.Maps firsts seconds →
          firsts.all (graph.knowsWithin levels) = true →
          seconds.all (other.knowsWithin levels) = true → ∀ {merged merged' : List Property},
          List.Forall₂ (Property.Matches images.Maps) merged merged' →
          List.Forall₂ (Property.Matches images.Maps)
            (firsts.foldl (fun merged part =>
              mergeProperties merged (graph.propertiesWithin levels part)) merged)
            (seconds.foldl (fun merged part =>
              mergeProperties merged (other.propertiesWithin levels part)) merged') := by
        intro firsts seconds parts
        induction parts with
        | nil => exact fun _ _ _ _ matching => matching
        | cons head tail step =>
          intro inside inside' merged merged' matching
          rw [List.all_cons] at inside inside'
          obtain ⟨one, rest⟩ := Bool.and_eq_true_iff.mp inside
          obtain ⟨one', rest'⟩ := Bool.and_eq_true_iff.mp inside'
          exact step rest rest' (mergeProperties_matches matching (ih head one one'))
      exact fold parts inside inside' .nil
    | _ => exact .nil

/-- **The properties of a type are the same.** -/
theorem properties_matches {first second : TypeId} (maps : images.Maps first second)
    (known : graph.knowsProperties first = true) (known' : other.knowsProperties second = true) :
    List.Forall₂ (Property.Matches images.Maps) (graph.properties first)
      (other.properties second) :=
  propertiesWithin_matches mirrors continues _ maps known known'

/-- The type of further properties is the same through any number of levels. -/
theorem indexWithin_matches (levels : Nat) {first second : TypeId}
    (maps : images.Maps first second) (known : graph.knowsWithin levels first = true)
    (known' : other.knowsWithin levels second = true) :
    Option.Rel images.Maps (graph.indexWithin levels first) (other.indexWithin levels second) := by
  induction levels generalizing first second with
  | zero => exact .none
  | succ levels ih =>
    rw [Graph.knowsWithin] at known known'
    obtain ⟨here, inside⟩ := Bool.and_eq_true_iff.mp known
    obtain ⟨here', inside'⟩ := Bool.and_eq_true_iff.mp known'
    have matching := kind_matches mirrors continues maps here here'
    rw [Graph.indexWithin, Graph.indexWithin]
    revert matching inside inside'
    generalize graph.kind first = left, other.kind second = right
    rintro inside inside' matching
    cases matching with
    | object shape => exact shape.index
    | intersection parts =>
      dsimp only at inside inside' ⊢
      induction parts with
      | nil => exact .none
      | cons head tail step =>
        rw [List.all_cons] at inside inside'
        obtain ⟨one, rest⟩ := Bool.and_eq_true_iff.mp inside
        obtain ⟨one', rest'⟩ := Bool.and_eq_true_iff.mp inside'
        have index := ih head one one'
        rw [List.findSome?_cons, List.findSome?_cons]
        revert index
        generalize graph.indexWithin levels _ = left, other.indexWithin levels _ = right
        rintro (index | _)
        · exact .some index
        · exact step rest rest'
    | _ => exact .none

theorem index?_matches {first second : TypeId} (maps : images.Maps first second)
    (known : graph.knowsProperties first = true) (known' : other.knowsProperties second = true) :
    Option.Rel images.Maps (graph.index? first) (other.index? second) :=
  indexWithin_matches mirrors continues _ maps known known'

/-- The property of a name is the same. -/
theorem property?_matches {first second : TypeId} (maps : images.Maps first second)
    (known : graph.knowsProperties first = true) (known' : other.knowsProperties second = true)
    (name : String) :
    Option.Rel (Property.Matches images.Maps) (graph.property? first name)
      (other.property? second name) :=
  find?_related (properties_matches mirrors continues maps known known') fun head => by
    rw [head.name]

/-- A path of properties leads to the same type. -/
theorem follow?_matches {first second : TypeId} (maps : images.Maps first second)
    (path : List String) (known : graph.knowsPath first path = true)
    (known' : other.knowsPath second path = true) :
    Option.Rel images.Maps (graph.follow? first path) (other.follow? second path) := by
  induction path generalizing first second with
  | nil => exact .some maps
  | cons name rest ih =>
    obtain ⟨here, inside⟩ := Bool.and_eq_true_iff.mp known
    obtain ⟨here', inside'⟩ := Bool.and_eq_true_iff.mp known'
    have matching := property?_matches mirrors continues maps here here' name
    rw [Graph.follow?, Graph.follow?, List.foldlM_cons, List.foldlM_cons]
    revert matching inside inside'
    generalize graph.property? first name = left, other.property? second name = right
    rintro inside inside' (matching | _)
    · exact ih matching.type inside inside'
    · exact .none

/-- The value of a literal that is the type of a property is the same. -/
theorem literalProperty?_eq {first second : TypeId} (maps : images.Maps first second)
    (name : String) (known : graph.knowsProperty first name = true)
    (known' : other.knowsProperty second name = true) :
    graph.literalProperty? first name = other.literalProperty? second name := by
  obtain ⟨here, inside⟩ := Bool.and_eq_true_iff.mp known
  obtain ⟨here', inside'⟩ := Bool.and_eq_true_iff.mp known'
  have matching := property?_matches mirrors continues maps here here' name
  rw [Graph.literalProperty?, Graph.literalProperty?]
  revert matching inside inside'
  generalize graph.property? first name = left, other.property? second name = right
  rintro inside inside' (matching | _)
  · exact stringValue?_seen (.inl (kind_matches mirrors continues matching.type inside inside'))
  · rfl

/-- A type is an object type or an intersection on both sides or on neither. -/
theorem isStructured_eq {first second : TypeId} (maps : images.Maps first second)
    (known : graph.isKnown first = true) (known' : other.isKnown second = true) :
    graph.isStructured first = other.isStructured second := by
  have matching := kind_matches mirrors continues maps known known'
  rw [Graph.isStructured, Graph.isStructured]
  revert matching
  generalize graph.kind first = left, other.kind second = right
  rintro matching
  cases matching <;> rfl

/-- A type exposes the marks of a reference to a function on both sides or on neither. -/
theorem isMarkedReference_eq {first second : TypeId} (maps : images.Maps first second)
    (known : graph.knowsProperties first = true) (known' : other.knowsProperties second = true) :
    graph.isMarkedReference first = other.isMarkedReference second := by
  have same : ∀ name,
      (graph.property? first name).isSome = (other.property? second name).isSome := by
    intro name
    have matching := property?_matches mirrors continues maps known known' name
    revert matching
    generalize graph.property? first name = left, other.property? second name = right
    rintro (_ | _) <;> rfl
  rw [Graph.isMarkedReference, Graph.isMarkedReference]
  simp only [same]

end Properties

end SwiftBindings.TypeGraph
