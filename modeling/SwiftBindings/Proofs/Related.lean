/-
**Lists and options that are related item by item.**

Two lists are related if their items are, one by one, and two options if both have related values or
none. What is looked up in related lists is related, and what is read from related options is the same.
-/

import Mathlib.Data.List.Forall2

namespace SwiftBindings

variable {α β γ δ : Type} {R : α → β → Prop}

/-- What holds of the items on each side can be had of related items. -/
theorem forall₂_and {items : List α} {items' : List β} {holds : α → Prop} {holds' : β → Prop}
    (same : List.Forall₂ R items items') (here : ∀ item ∈ items, holds item)
    (there : ∀ item ∈ items', holds' item) :
    List.Forall₂ (fun item item' => R item item' ∧ holds item ∧ holds' item') items items' := by
  induction same with
  | nil => exact .nil
  | cons related _ ih =>
    refine .cons ⟨related, here _ List.mem_cons_self, there _ List.mem_cons_self⟩ (ih ?_ ?_)
    · exact fun item member => here item (List.mem_cons_of_mem _ member)
    · exact fun item member => there item (List.mem_cons_of_mem _ member)

/-- Every item on the right is related to one on the left. -/
theorem exists_of_mem_right {items : List α} {items' : List β} (same : List.Forall₂ R items items')
    {item' : β} (member : item' ∈ items') : ∃ item ∈ items, R item item' := by
  induction same with
  | nil => cases member
  | cons related _ ih =>
    rcases List.mem_cons.mp member with rfl | member
    · exact ⟨_, List.mem_cons_self, related⟩
    · obtain ⟨item, inside, found⟩ := ih member
      exact ⟨item, List.mem_cons_of_mem _ inside, found⟩

/-- The values of one key are related. -/
theorem lookup_related {κ : Type} [BEq κ] {entries : List (κ × α)} {entries' : List (κ × β)}
    (same : List.Forall₂ (fun entry entry' => entry.1 = entry'.1 ∧ R entry.2 entry'.2) entries entries')
    (key : κ) : Option.Rel R (entries.lookup key) (entries'.lookup key) := by
  induction same with
  | nil => exact .none
  | cons entry _ ih =>
    rw [List.lookup_cons, List.lookup_cons, entry.1]
    split
    · exact .some entry.2
    · exact ih

/-- The first items that pass a test are related where it does not tell related items apart. -/
theorem find?_related {items : List α} {items' : List β} (same : List.Forall₂ R items items')
    {test : α → Bool} {test' : β → Bool} (blind : ∀ {item item'}, R item item' → test item = test' item') :
    Option.Rel R (items.find? test) (items'.find? test') := by
  induction same with
  | nil => exact .none
  | @cons item item' _ _ related _ ih =>
    rw [List.find?_cons, List.find?_cons, blind related]
    cases test' item' with
    | true => exact .some related
    | false => exact ih

/-- The first values that are read from items are related where those of related items are. -/
theorem findSome?_related {S : γ → δ → Prop} {items : List α} {items' : List β}
    (same : List.Forall₂ R items items') {read : α → Option γ} {read' : β → Option δ}
    (reads : ∀ {item item'}, R item item' → Option.Rel S (read item) (read' item')) :
    Option.Rel S (items.findSome? read) (items'.findSome? read') := by
  induction same with
  | nil => exact .none
  | @cons item item' _ _ related _ ih =>
    have here := reads related
    rw [List.findSome?_cons, List.findSome?_cons]
    generalize read item = value, read' item' = value' at here ⊢
    cases here with
    | none => exact ih
    | some value => exact .some value

/-- The first items are related. -/
theorem head?_related {items : List α} {items' : List β} (same : List.Forall₂ R items items') :
    Option.Rel R items.head? items'.head? := by
  cases same with
  | nil => exact .none
  | cons item _ => exact .some item

section Options

variable {first : Option α} {second : Option β}

theorem rel_imp {S : α → β → Prop} (implies : ∀ value value', R value value' → S value value')
    (same : Option.Rel R first second) : Option.Rel S first second := by
  cases same with
  | none => exact .none
  | some value => exact .some (implies _ _ value)

theorem rel_bind {S : γ → δ → Prop} (same : Option.Rel R first second) {read : α → Option γ}
    {read' : β → Option δ} (reads : ∀ {value value'}, R value value' → Option.Rel S (read value) (read' value')) :
    Option.Rel S (first.bind read) (second.bind read') := by
  cases same with
  | none => exact .none
  | some value => exact reads value

theorem rel_map {S : γ → δ → Prop} (same : Option.Rel R first second) {read : α → γ} {read' : β → δ}
    (reads : ∀ {value value'}, R value value' → S (read value) (read' value')) :
    Option.Rel S (first.map read) (second.map read') := by
  cases same with
  | none => exact .none
  | some value => exact .some (reads value)

theorem rel_or {other : Option α} {other' : Option β} (same : Option.Rel R first second)
    (others : Option.Rel R other other') : Option.Rel R (first.or other) (second.or other') := by
  cases same with
  | some value => exact .some value
  | none => exact others

theorem bind_related (same : Option.Rel R first second) {read : α → Option γ} {read' : β → Option γ}
    (reads : ∀ {value value'}, R value value' → read value = read' value') :
    first.bind read = second.bind read' := by
  cases same with
  | none => rfl
  | some value => exact reads value

theorem map_related (same : Option.Rel R first second) {read : α → γ} {read' : β → γ}
    (reads : ∀ {value value'}, R value value' → read value = read' value') :
    first.map read = second.map read' := by
  cases same with
  | none => rfl
  | some value => exact congrArg some (reads value)

end Options

end SwiftBindings
