/-
**Parts in either order.**

An intersection lists each name once, whichever of its parts list it, and takes the property of a name
from the first part that lists it (`property?_intersection`). So two intersections of the same parts in
either order list the same names. Their properties of a name are alike exactly if both parts agree about
it, as far as both list it; else each intersection has the property of the part that is written first.
That is the main statement, `intersection_order_iff`.
-/

import SwiftBindings.Proofs.Related
import SwiftBindings.Proofs.TypeGraph.DeclaredProperties
import SwiftBindings.Proofs.TypeGraph.SameTypes

namespace SwiftBindings.TypeGraph

open Declared

/-! ### Merged properties -/

/-- What is found in a merged list is found in the first list, or else in the second. -/
theorem firstOf?_mergeProperties (first second : List Property) (name : String) :
    firstOf? (mergeProperties first second) name = (firstOf? first name).or (firstOf? second name) := by
  rw [mergeProperties]
  induction second generalizing first with
  | nil => simp [firstOf?]
  | cons property rest ih =>
    rw [List.foldl_cons, ih]
    by_cases here : property.name = name
    · subst here
      cases found : firstOf? first property.name with
      | some held =>
        have located : (first.find? fun other => other.name == property.name) = some held := found
        have member : (first.any fun other => other.name == property.name) = true :=
          List.any_eq_true.mpr
            ⟨held, List.mem_of_find?_eq_some located, by simpa using List.find?_some located⟩
        rw [if_pos member, found, Option.some_or, Option.some_or]
      | none =>
        have absent : ¬(first.any fun other => other.name == property.name) = true := by
          simpa [firstOf?] using found
        rw [if_neg absent, firstOf?_concat, found, if_pos rfl, Option.none_or, Option.none_or]
        simp [firstOf?]
    · have skipped : firstOf? (property :: rest) name = firstOf? rest name := by simp [firstOf?, here]
      rw [skipped]
      split
      · rfl
      · rw [firstOf?_concat, if_neg here, Option.or_none]

theorem mem_names_iff_firstOf? {properties : List Property} {name : String} :
    name ∈ properties.map Property.name ↔ (firstOf? properties name).isSome = true := by
  simp [firstOf?]

theorem firstOf?_matches {relate : TypeId → TypeId → Prop} {firsts seconds : List Property}
    (matching : List.Forall₂ (Property.Matches relate) firsts seconds) (name : String) :
    Option.Rel (Property.Matches relate) (firstOf? firsts name) (firstOf? seconds name) :=
  find?_related matching fun head => by rw [head.name]

/-! ### Intersections of two types -/

/-- What a part of an intersection lists under a name. -/
def Graph.listed? (graph : Graph) (part : TypeId) (name : String) : Option Property :=
  firstOf? (graph.propertiesWithin walkDepth part) name

/-- Where both parts list the name, they list the same type, which may be absent in both or in
neither. -/
def Graph.AgreeOn (graph : Graph) (first second : TypeId) (name : String) : Prop :=
  ∀ one ∈ graph.listed? first name, ∀ other ∈ graph.listed? second name,
    one.Matches graph.SameType other

section Intersection

variable {graph : Graph} {id first second : TypeId}

section Parts

variable (kind : graph.kind id = .intersection [first, second])

include kind

theorem properties_intersection : graph.properties id =
    mergeProperties (mergeProperties [] (graph.propertiesWithin walkDepth first))
      (graph.propertiesWithin walkDepth second) := by
  rw [Graph.properties, Graph.propertiesWithin, kind]
  rfl

/-- **The first part that lists a name decides on its property.** -/
theorem property?_intersection (name : String) :
    graph.property? id name = (graph.listed? first name).or (graph.listed? second name) := by
  have found : graph.property? id name = firstOf? (graph.properties id) name := rfl
  rw [found, properties_intersection kind, firstOf?_mergeProperties, firstOf?_mergeProperties]
  rfl

theorem nodup_names_intersection : (graph.names id).Nodup := by
  rw [Graph.names, properties_intersection kind]
  have none : (([] : List Property).map Property.name).Nodup := List.nodup_nil
  exact nodup_names_mergeProperties (nodup_names_mergeProperties none _) _

/-- The names are those that either part lists. -/
theorem mem_names_intersection {name : String} : name ∈ graph.names id ↔
    (graph.listed? first name).isSome = true ∨ (graph.listed? second name).isSome = true := by
  have found : graph.property? id name = firstOf? (graph.properties id) name := rfl
  rw [Graph.names, mem_names_iff_firstOf?, ← found, property?_intersection kind, Option.isSome_or,
    Bool.or_eq_true]

end Parts

theorem Graph.SameType.listed? (same : graph.SameType first second) (name : String) :
    Option.Rel (Property.Matches graph.SameType) (graph.listed? first name)
      (graph.listed? second name) :=
  firstOf?_matches (same.propertiesWithin walkDepth) name

theorem Graph.SameType.isSome_listed? (same : graph.SameType first second) (name : String) :
    (graph.listed? first name).isSome = (graph.listed? second name).isSome := by
  have lists := same.listed? name
  revert lists
  generalize graph.listed? first name = left, graph.listed? second name = right
  rintro (_ | _)
  · rfl
  · rfl

end Intersection

theorem Property.Matches.trans {graph : Graph} {first second third : Property}
    (matching : first.Matches graph.SameType second) (matching' : second.Matches graph.SameType third) :
    first.Matches graph.SameType third :=
  ⟨matching.name.trans matching'.name, matching.optional.trans matching'.optional,
    matching.type.trans matching'.type⟩

theorem Property.Matches.symm {graph : Graph} {first second : Property}
    (matching : first.Matches graph.SameType second) : second.Matches graph.SameType first :=
  ⟨matching.name.symm, matching.optional.symm, matching.type.symm⟩

/-- **Intersections of the same types in either order.** They list the same names, each once. The
properties of a name are alike exactly if the parts agree on it; where they do not, both list it, and
each intersection has the property of the part that is written first. -/
theorem intersection_order_iff {graph : Graph} {id other first second first' second' : TypeId}
    (kind : graph.kind id = .intersection [first, second])
    (kind' : graph.kind other = .intersection [second', first'])
    (same : graph.SameType first first') (same' : graph.SameType second second') :
    (graph.names id).Nodup ∧ (graph.names id).Perm (graph.names other) ∧
      ∀ (name : String) (one two : Property), graph.property? id name = some one →
        graph.property? other name = some two →
          (one.Matches graph.SameType two ↔ graph.AgreeOn first second name) ∧
          (¬graph.AgreeOn first second name →
            graph.listed? first name = some one ∧ graph.listed? second' name = some two) := by
  have distinct := nodup_names_intersection kind
  refine ⟨distinct, ?_, fun name one two found found' => ?_⟩
  · refine (List.perm_ext_iff_of_nodup distinct (nodup_names_intersection kind')).mpr fun name => ?_
    rw [mem_names_intersection kind, mem_names_intersection kind', same.isSome_listed?,
      same'.isSome_listed?]
    exact or_comm
  rw [property?_intersection kind] at found
  rw [property?_intersection kind'] at found'
  have lists := same.listed? name
  have lists' := same'.listed? name
  rw [Graph.AgreeOn]
  revert found found' lists lists'
  generalize graph.listed? first name = left, graph.listed? first' name = left',
    graph.listed? second name = right, graph.listed? second' name = right'
  rintro found found' (matching | _) (matching' | _)
  · -- Both parts list the name, and each intersection has the property of its first part.
    cases found
    cases found'
    refine ⟨⟨fun alike held member held' member' => ?_, fun agree => ?_⟩, fun _ => ⟨rfl, rfl⟩⟩
    · cases member
      cases member'
      exact alike.trans matching'.symm
    · exact (agree _ rfl _ rfl).trans matching'
  · cases found
    cases found'
    have agree : ∀ held ∈ some one, ∀ other ∈ (none : Option Property),
        held.Matches graph.SameType other := fun _ _ _ absent => by cases absent
    exact ⟨iff_of_true matching agree, fun disagree => absurd agree disagree⟩
  · cases found
    cases found'
    have agree : ∀ held ∈ (none : Option Property), ∀ other ∈ some one,
        held.Matches graph.SameType other := fun _ absent => by cases absent
    exact ⟨iff_of_true matching' agree, fun disagree => absurd agree disagree⟩
  · cases found

/-- Two aliases of type literals in intersections in either order. -/
def crossedParts : Symbols := .ofItems
  [.typeAlias "A" [] (.object [.property "p" false (.keyword .string),
      .property "q" false (.keyword .number)]) false,
    .typeAlias "B" [] (.object [.property "p" true (.keyword .number),
      .property "q" false (.keyword .number)]) false,
    .value "ab" (.intersection [.reference "A" [], .reference "B" []]) true,
    .value "ba" (.intersection [.reference "B" [], .reference "A" []]) true]

/-- The parts do not agree on the first name, so the order decides on its type and on whether it may be
absent. -/
theorem crossedParts_disagree :
    let final := graphAfter crossedParts ["ab", "ba"] .initial
    final.kind 7 = .intersection [1, 5] ∧ final.kind 8 = .intersection [5, 1] ∧
      final.property? 7 "p" = some ⟨"p", 2, false⟩ ∧ final.property? 8 "p" = some ⟨"p", 3, true⟩ ∧
      ¬final.SameType 2 3 := by
  intro final
  have kinds : final.kind 2 = .primitive .string ∧ final.kind 3 = .primitive .number := by
    decide +kernel
  refine ⟨by decide +kernel, by decide +kernel, by decide +kernel, by decide +kernel, fun same => ?_⟩
  have top := same 1
  simp [Graph.unfold, kinds] at top

/-- They agree on the second name. -/
theorem crossedParts_agree :
    let final := graphAfter crossedParts ["ab", "ba"] .initial
    final.kind 7 = .intersection [1, 5] ∧ final.kind 8 = .intersection [5, 1] ∧
      (final.names 7).Perm (final.names 8) ∧ final.AgreeOn 1 5 "q" := by
  intro final
  have kind : final.kind 7 = .intersection [1, 5] := by decide +kernel
  have kind' : final.kind 8 = .intersection [5, 1] := by decide +kernel
  obtain ⟨_, same, properties⟩ := intersection_order_iff kind kind' (.refl final 1) (.refl final 5)
  have found : final.property? 7 "q" = some ⟨"q", 3, false⟩ := by decide +kernel
  have found' : final.property? 8 "q" = some ⟨"q", 3, false⟩ := by decide +kernel
  exact ⟨kind, kind', same, (properties "q" _ _ found found').1.mp ⟨rfl, rfl, .refl final 3⟩⟩

end SwiftBindings.TypeGraph
