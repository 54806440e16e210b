/-
**Lists without their repetitions.**

Of equal items of a list the first one is left (`List.eraseDups`). What is left of a list has no
repetition (`nodup_eraseDups`), and a list without one is left as it is (`eraseDups_of_nodup`). What is
left of two lists in a row depends on what is left of each (`eraseDups_append_congr`), and up to the
order on the items alone (`eraseDups_perm`).
-/

import Mathlib.Data.List.Basic
import Mathlib.Data.List.Perm.Basic

namespace SwiftBindings

section Repetitions

variable {α : Type} [BEq α] [LawfulBEq α]

theorem nodup_eraseDups : ∀ items : List α, items.eraseDups.Nodup
  | [] => List.nodup_nil
  | item :: rest => by
    have shorter := List.length_filter_le (fun other => !other == item) rest
    rw [List.eraseDups_cons, List.nodup_cons, List.mem_eraseDups]
    exact ⟨fun member => by simpa using (List.mem_filter.mp member).2, nodup_eraseDups _⟩
  termination_by items => items.length
  decreasing_by exact Nat.lt_succ_of_le shorter

theorem eraseDups_of_nodup {items : List α} (distinct : items.Nodup) : items.eraseDups = items := by
  induction items with
  | nil => rfl
  | cons item rest ih =>
    obtain ⟨new, distinct⟩ := List.nodup_cons.mp distinct
    have others : rest.filter (fun other => !other == item) = rest := by
      refine List.filter_eq_self.mpr fun other member => ?_
      have apart : other ≠ item := fun same => new (same ▸ member)
      simp [apart]
    rw [List.eraseDups_cons, others, ih distinct]

theorem eraseDups_eraseDups (items : List α) : items.eraseDups.eraseDups = items.eraseDups :=
  eraseDups_of_nodup (nodup_eraseDups items)

theorem eraseDups_concat (items : List α) (item : α) [Decidable (item ∈ items)] :
    (items ++ [item]).eraseDups =
      if item ∈ items then items.eraseDups else items.eraseDups ++ [item] := by
  rw [List.eraseDups_append, List.removeAll]
  split
  · rename_i held
    simp [held]
  · rename_i new
    simp [new, List.eraseDups_cons]

theorem eraseDups_filter (keep : α → Bool) (items : List α) :
    (items.filter keep).eraseDups = items.eraseDups.filter keep := by
  -- By the length, since the repetitions of the first item are taken out of the rest at once.
  induction length : items.length using Nat.strongRecOn generalizing items with
  | _ count ih =>
    cases items with
    | nil => rfl
    | cons first rest =>
      have shorter : (rest.filter fun item => !item == first).length < count := by
        rw [← length, List.length_cons]
        exact Nat.lt_succ_of_le (List.length_filter_le _ _)
      have step := ih _ shorter _ rfl
      rw [List.eraseDups_cons]
      by_cases kept : keep first = true
      · rw [List.filter_cons_of_pos kept, List.eraseDups_cons, List.filter_cons_of_pos kept, ← step,
          List.filter_filter, List.filter_filter]
        simp only [Bool.and_comm]
      · rw [List.filter_cons_of_neg kept, List.filter_cons_of_neg kept, ← step, List.filter_filter]
        refine congrArg List.eraseDups (List.filter_congr fun item _ => ?_)
        by_cases same : item = first
        · subst same
          simpa using kept
        · simp [same]

/-- What is left of two lists in a row depends on what is left of each. -/
theorem eraseDups_append_congr {first first' second second' : List α}
    (same : first.eraseDups = first'.eraseDups) (same' : second.eraseDups = second'.eraseDups) :
    (first ++ second).eraseDups = (first' ++ second').eraseDups := by
  have members : ∀ item, first.elem item = first'.elem item := by
    intro item
    rw [Bool.eq_iff_iff, List.elem_iff, List.elem_iff, ← List.mem_eraseDups, same, List.mem_eraseDups]
  rw [List.eraseDups_append, List.eraseDups_append, List.removeAll, List.removeAll, eraseDups_filter,
    eraseDups_filter, same, same']
  simp only [members]

/-- Up to the order, what is left of a list depends on its items. -/
theorem eraseDups_perm {items items' : List α} (same : ∀ item, item ∈ items ↔ item ∈ items') :
    items.eraseDups.Perm items'.eraseDups := by
  refine (List.perm_ext_iff_of_nodup (nodup_eraseDups _) (nodup_eraseDups _)).mpr fun item => ?_
  rw [List.mem_eraseDups, List.mem_eraseDups, same item]

end Repetitions

end SwiftBindings
