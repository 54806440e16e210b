/-
**Lists with keys.**

A list of keys with values in the order in which the keys first appear. Putting a value under a key
that is there replaces the value and keeps the place: `lookup_put` and `keys_put`.
-/

namespace SwiftBindings

/-- Keys with values, in order. -/
abbrev Keyed (κ α : Type) := List (κ × α)

/-- The list with a value under a key: in the key's place, or at the end. -/
def Keyed.put {κ α : Type} [BEq κ] (key : κ) (value : α) : Keyed κ α → Keyed κ α
  | [] => [(key, value)]
  | entry :: rest =>
    if entry.1 == key then (key, value) :: rest else entry :: Keyed.put key value rest

/-- The list with the entries of another put in, one after the other. -/
def Keyed.extend {κ α : Type} [BEq κ] (entries more : Keyed κ α) : Keyed κ α :=
  more.foldl (fun merged entry => Keyed.put entry.1 entry.2 merged) entries

/-- A key is found with the value that was put last. -/
theorem Keyed.lookup_put {κ α : Type} [BEq κ] [LawfulBEq κ] [DecidableEq κ] (key : κ) (value : α)
    (entries : Keyed κ α) (other : κ) :
    (Keyed.put key value entries).lookup other =
      if other = key then some value else entries.lookup other := by
  induction entries with
  | nil =>
    by_cases same : other = key
    · simp [Keyed.put, same]
    · simp [Keyed.put, List.lookup_cons, same, beq_false_of_ne same]
  | cons entry rest step =>
    obtain ⟨first, held⟩ := entry
    by_cases here : first = key
    · by_cases same : other = key
      · simp [Keyed.put, here, same]
      · simp [Keyed.put, List.lookup_cons, here, same, beq_false_of_ne same]
    · by_cases found : other = first
      · subst found
        simp [Keyed.put, here]
      · simp [Keyed.put, List.lookup_cons, here, step, beq_false_of_ne found]

/-- Putting a value keeps the keys and their order, and adds the key at the end if it is new. -/
theorem Keyed.keys_put {κ α : Type} [DecidableEq κ] (key : κ) (value : α)
    (entries : Keyed κ α) :
    (Keyed.put key value entries).map Prod.fst =
      if key ∈ entries.map Prod.fst then entries.map Prod.fst
      else entries.map Prod.fst ++ [key] := by
  induction entries with
  | nil => simp [Keyed.put]
  | cons entry rest step =>
    by_cases here : entry.1 = key
    · simp [Keyed.put, here]
    · have apart : ¬key = entry.1 := fun same => here same.symm
      simp only [Keyed.put, beq_iff_eq, here, if_false, List.map_cons, List.mem_cons, apart,
        false_or, step]
      split <;> simp

end SwiftBindings
