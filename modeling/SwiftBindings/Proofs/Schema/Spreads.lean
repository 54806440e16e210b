/-
**Objects with spreads.**

An object literal may spread others, and these may spread further ones. Its members are what its
properties come to when the spread objects are written out in its place: `Environment.Inlines` says
which properties these are, one after the other with all repetitions.

* `Environment.membersTo_eq`: to whatever depth spreads are read, the members are the properties met on
  the way, each put under its key in turn.
* `Keyed.keys_ofList`, `Keyed.lookup_ofList`: of properties put in turn, each key has the place of its
  first one and the value of its last one.
* `Environment.members_inline`: where spreads are not nested deeper than they are read, a spread can be
  replaced by the properties of its operand, and the members are the properties written out.
-/

import Mathlib.Data.List.Induction
import SwiftBindings.Proofs.Repetitions
import SwiftBindings.Schema.Builder

namespace SwiftBindings

/-! ### Properties put in turn -/

namespace Keyed

variable {κ α : Type} [DecidableEq κ]

/-- The list of the given entries, put in turn. -/
def ofList (entries : List (κ × α)) : Keyed κ α :=
  Keyed.extend [] entries

theorem extend_append (entries more others : Keyed κ α) :
    entries.extend (more ++ others) = (entries.extend more).extend others :=
  List.foldl_append

theorem ofList_concat (entries : List (κ × α)) (key : κ) (value : α) :
    ofList (entries ++ [(key, value)]) = Keyed.put key value (ofList entries) :=
  extend_append [] entries [(key, value)]

/-- **Each key has the place of its first entry.** -/
theorem keys_ofList (entries : List (κ × α)) :
    (ofList entries).map Prod.fst = (entries.map Prod.fst).eraseDups := by
  induction entries using List.reverseRecOn with
  | nil => rfl
  | append_singleton entries entry ih =>
    rw [ofList_concat, keys_put, ih, List.map_append, List.map_singleton, eraseDups_concat]
    simp only [List.mem_eraseDups]

theorem nodup_ofList (entries : List (κ × α)) : ((ofList entries).map Prod.fst).Nodup := by
  rw [keys_ofList]
  exact nodup_eraseDups _

/-- **Each key has the value of its last entry.** -/
theorem lookup_ofList (entries : List (κ × α)) (key : κ) :
    (ofList entries).lookup key = entries.reverse.lookup key := by
  induction entries using List.reverseRecOn with
  | nil => rfl
  | append_singleton entries entry ih =>
    rw [ofList_concat, lookup_put, ih, List.reverse_append, List.reverse_singleton,
      List.singleton_append, List.lookup_cons]
    by_cases same : key = entry.1
    · rw [if_pos same, beq_iff_eq.mpr same]
    · rw [if_neg same, beq_false_of_ne same]

/-- Lists with the same keys in the same order and the same values under them are the same. -/
theorem ext {first second : Keyed κ α} (distinct : (first.map Prod.fst).Nodup)
    (keys : first.map Prod.fst = second.map Prod.fst)
    (values : ∀ key, first.lookup key = second.lookup key) : first = second := by
  induction first generalizing second with
  | nil => exact (List.map_eq_nil_iff.mp keys.symm).symm
  | cons entry rest ih =>
    obtain ⟨key, value⟩ := entry
    obtain _ | ⟨⟨key', value'⟩, rest'⟩ := second
    · cases keys
    · obtain ⟨same, others⟩ := List.cons_eq_cons.mp keys
      obtain rfl : key = key' := same
      obtain ⟨new, apart⟩ := List.nodup_cons.mp distinct
      have here := values key
      rw [List.lookup_cons_self, List.lookup_cons_self] at here
      cases here
      refine congrArg _ (ih apart others fun other => ?_)
      by_cases same : other = key
      · -- The first key stands in neither rest.
        subst same
        have without : ∀ {entries : Keyed κ α}, other ∉ entries.map Prod.fst →
            entries.lookup other = none := by
          intro entries outside
          refine List.lookup_eq_none_iff.mpr fun entry member => bne_iff_ne.mpr fun same => ?_
          exact outside (List.mem_map.mpr ⟨entry, member, same.symm⟩)
        have new' : other ∉ rest'.map Prod.fst := by rwa [← others]
        rw [without new, without new']
      · have there := values other
        rwa [List.lookup_cons, List.lookup_cons, beq_false_of_ne same] at there

theorem put_of_new {key : κ} {entries : Keyed κ α} (new : key ∉ entries.map Prod.fst) (value : α) :
    Keyed.put key value entries = entries ++ [(key, value)] := by
  induction entries with
  | nil => rfl
  | cons entry rest ih =>
    rw [List.map_cons, List.mem_cons, not_or] at new
    have other : (entry.1 == key) = false := beq_false_of_ne fun same => new.1 same.symm
    rw [Keyed.put, other, ih new.2]
    rfl

theorem ofList_of_nodup {entries : Keyed κ α} (distinct : (entries.map Prod.fst).Nodup) :
    ofList entries = entries := by
  induction entries using List.reverseRecOn with
  | nil => rfl
  | append_singleton entries entry ih =>
    rw [List.map_append, List.nodup_append] at distinct
    obtain ⟨distinct, _, apart⟩ := distinct
    have new : entry.1 ∉ entries.map Prod.fst := fun member =>
      apart _ member _ (List.mem_singleton_self _) rfl
    rw [ofList_concat, ih distinct, put_of_new new]

/-- Where entries that were put together stand behind others, they may as well be put in turn. -/
theorem ofList_append_ofList (entries more : List (κ × α)) :
    ofList (entries ++ ofList more) = ofList (entries ++ more) := by
  have twice : ofList (ofList more) = ofList more := ofList_of_nodup (nodup_ofList more)
  refine ext (nodup_ofList _) ?_ fun key => ?_
  · rw [keys_ofList, keys_ofList, List.map_append, List.map_append, keys_ofList]
    exact eraseDups_append_congr rfl (eraseDups_eraseDups _)
  · rw [lookup_ofList, lookup_ofList, List.reverse_append, List.reverse_append, List.lookup_append,
      List.lookup_append, ← lookup_ofList, twice, lookup_ofList]

theorem map_put {β : Type} (image : α → β) (key : κ) (value : α) (entries : Keyed κ α) :
    (Keyed.put key value entries).map (Prod.map id image) =
      Keyed.put key (image value) (entries.map (Prod.map id image)) := by
  induction entries with
  | nil => rfl
  | cons entry rest ih =>
    rw [Keyed.put, List.map_cons, Keyed.put, ← ih]
    split <;> simp_all

/-- It does not matter whether values are changed before or after their entries are put. -/
theorem map_ofList {β : Type} (image : α → β) (entries : List (κ × α)) :
    (ofList entries).map (Prod.map id image) = ofList (entries.map (Prod.map id image)) := by
  induction entries using List.reverseRecOn with
  | nil => rfl
  | append_singleton entries entry ih =>
    rw [ofList_concat, map_put, ih, List.map_append]
    exact (ofList_concat _ _ _).symm

theorem mem_put {key : κ} {value : α} {entries : Keyed κ α} {entry : κ × α}
    (member : entry ∈ Keyed.put key value entries) : entry = (key, value) ∨ entry ∈ entries := by
  induction entries with
  | nil => exact .inl (List.mem_singleton.mp member)
  | cons first rest ih =>
    rw [Keyed.put] at member
    split at member
    · exact (List.mem_cons.mp member).imp_right (List.mem_cons_of_mem _)
    · rcases List.mem_cons.mp member with rfl | member
      · exact .inr List.mem_cons_self
      · exact (ih member).imp_right (List.mem_cons_of_mem _)

theorem mem_ofList {entries : List (κ × α)} {entry : κ × α} (member : entry ∈ ofList entries) :
    entry ∈ entries := by
  induction entries using List.reverseRecOn with
  | nil => exact member
  | append_singleton entries last ih =>
    rw [ofList_concat] at member
    rcases mem_put member with rfl | before
    · exact List.mem_append_right _ (List.mem_singleton_self _)
    · exact List.mem_append_left _ (ih before)

end Keyed

namespace Script

/-! ### Properties written out -/

/-- The properties that come of an entry, given those that come of a spread object. -/
def Environment.propertiesOf (env : Environment) (spread : Term → List (String × Term)) :
    Entry → List (String × Term)
  | .property key value => [(key, value)]
  | .computed key value => (env.string? key).toList.map fun key => (key, value)
  | .spread operand => spread operand
  | .other => []

/-- The properties that come of entries, with all repetitions, where spread objects are read to a depth.
-/
def Environment.propertiesTo (env : Environment) : Nat → List Entry → List (String × Term)
  | 0, entries => entries.flatMap (env.propertiesOf fun _ => [])
  | depth + 1, entries =>
    entries.flatMap (env.propertiesOf fun operand =>
      match env.objectEntries? operand with
      | some inner => env.propertiesTo depth inner
      | none => [])

section Members

variable (env : Environment)

/-- Entries are merged by putting the properties that come of them, in turn. -/
theorem Environment.foldl_mergeEntry {spread : Term → Members} {properties : Term → List (String × Term)}
    (same : ∀ operand, spread operand = Keyed.ofList (properties operand)) (entries : List Entry)
    (before : List (String × Term)) :
    entries.foldl (env.mergeEntry spread) (Keyed.ofList before) =
      Keyed.ofList (before ++ entries.flatMap (env.propertiesOf properties)) := by
  induction entries generalizing before with
  | nil => rw [List.flatMap_nil, List.append_nil, List.foldl_nil]
  | cons entry rest ih =>
    have here : env.mergeEntry spread (Keyed.ofList before) entry =
        Keyed.ofList (before ++ env.propertiesOf properties entry) := by
      cases entry with
      | property key value => exact (Keyed.ofList_concat before key value).symm
      | computed key value =>
        rw [mergeEntry, propertiesOf]
        cases env.string? key with
        | some key => exact (Keyed.ofList_concat before key value).symm
        | none => exact congrArg _ (List.append_nil before).symm
      | spread operand =>
        rw [mergeEntry, propertiesOf, same, ← Keyed.ofList_append_ofList]
        exact (Keyed.extend_append [] before _).symm
      | other => exact congrArg _ (List.append_nil before).symm
    rw [List.foldl_cons, here, ih, List.flatMap_cons, List.append_assoc]

/-- **The members of entries are the properties that come of them, put in turn.** -/
theorem Environment.membersTo_eq (depth : Nat) (entries : List Entry) :
    env.membersTo depth entries = Keyed.ofList (env.propertiesTo depth entries) := by
  induction depth generalizing entries with
  | zero =>
    have nothing : ∀ _ : Term, ([] : Members) = Keyed.ofList [] := fun _ => rfl
    rw [membersTo, propertiesTo]
    exact env.foldl_mergeEntry nothing entries []
  | succ depth ih =>
    rw [membersTo, propertiesTo]
    refine env.foldl_mergeEntry (fun operand => ?_) entries []
    cases env.objectEntries? operand with
    | some inner => exact ih inner
    | none => rfl

theorem Environment.propertiesTo_append (depth : Nat) (entries more : List Entry) :
    env.propertiesTo depth (entries ++ more) =
      env.propertiesTo depth entries ++ env.propertiesTo depth more := by
  cases depth <;> (rw [propertiesTo, propertiesTo, propertiesTo]; exact List.flatMap_append)

theorem Environment.propertiesTo_spread (depth : Nat) {operand : Term} {inner : List Entry}
    (found : env.objectEntries? operand = some inner) :
    env.propertiesTo (depth + 1) [.spread operand] = env.propertiesTo depth inner := by
  rw [propertiesTo, List.flatMap_singleton, propertiesOf, found]

end Members

/-! ### Nested spreads -/

/-- Spreads of objects are nested at most so many deep. -/
def Environment.NestsWithin (env : Environment) : Nat → List Entry → Prop
  | 0, entries => ∀ operand, Entry.spread operand ∈ entries → env.objectEntries? operand = none
  | depth + 1, entries => ∀ operand, Entry.spread operand ∈ entries →
    ∀ inner, env.objectEntries? operand = some inner → env.NestsWithin depth inner

/-- One more level of spreads is read to no effect where they are not nested so deep. -/
theorem Environment.propertiesTo_succ {env : Environment} {depth : Nat} {entries : List Entry}
    (nested : env.NestsWithin depth entries) :
    env.propertiesTo (depth + 1) entries = env.propertiesTo depth entries := by
  induction depth generalizing entries with
  | zero =>
    rw [propertiesTo, propertiesTo]
    refine List.flatMap_congr fun entry member => ?_
    cases entry with
    | spread operand => rw [propertiesOf, propertiesOf, nested operand member]
    | _ => rfl
  | succ depth ih =>
    rw [propertiesTo, propertiesTo]
    refine List.flatMap_congr fun entry member => ?_
    cases entry with
    | spread operand =>
      rw [propertiesOf, propertiesOf]
      cases found : env.objectEntries? operand with
      | some inner => exact ih (nested operand member inner found)
      | none => rfl
    | _ => rfl

/-- The properties that come of entries are these, one after the other, when spread objects are written
out: a spread is replaced by the entries of its operand, and where it has none, it is left out. -/
inductive Environment.Inlines (env : Environment) : List Entry → List (String × Term) → Prop
  /-- Nothing comes of nothing. -/
  | nil : Inlines env [] []
  /-- A property under a known key. -/
  | property {rest : List Entry} {properties : List (String × Term)} (key : String) (value : Term)
    (others : Inlines env rest properties) :
    Inlines env (.property key value :: rest) ((key, value) :: properties)
  /-- A property whose computed key stands for a string. -/
  | computed {rest : List Entry} {properties : List (String × Term)} {name : Term} {key : String}
    (value : Term) (known : env.string? name = some key) (others : Inlines env rest properties) :
    Inlines env (.computed name value :: rest) ((key, value) :: properties)
  /-- A property whose computed key stands for none. -/
  | unknown {rest : List Entry} {properties : List (String × Term)} {name : Term} (value : Term)
    (unknown : env.string? name = none) (others : Inlines env rest properties) :
    Inlines env (.computed name value :: rest) properties
  /-- A spread, replaced by the entries of its operand. -/
  | spread {rest inner : List Entry} {properties : List (String × Term)} {operand : Term}
    (found : env.objectEntries? operand = some inner) (written : Inlines env (inner ++ rest) properties) :
    Inlines env (.spread operand :: rest) properties
  /-- A spread of something else than an object. -/
  | nothing {rest : List Entry} {properties : List (String × Term)} {operand : Term}
    (absent : env.objectEntries? operand = none) (others : Inlines env rest properties) :
    Inlines env (.spread operand :: rest) properties
  /-- An entry without a key. -/
  | other {rest : List Entry} {properties : List (String × Term)} (others : Inlines env rest properties) :
    Inlines env (.other :: rest) properties

section Inlined

variable {env : Environment}

theorem Environment.Inlines.append {entries more : List Entry} {first second : List (String × Term)}
    (inlines : env.Inlines entries first) (others : env.Inlines more second) :
    env.Inlines (entries ++ more) (first ++ second) := by
  induction inlines with
  | nil => exact others
  | property key value _ ih => exact .property key value ih
  | computed value known _ ih => exact .computed value known ih
  | unknown value unknown _ ih => exact .unknown value unknown ih
  | spread found _ ih =>
    rw [List.append_assoc] at ih
    exact .spread found ih
  | nothing absent _ ih => exact .nothing absent ih
  | other _ ih => exact .other ih

theorem Environment.inlines_flatMap {entries : List Entry} {properties : Term → List (String × Term)}
    (written : ∀ operand, Entry.spread operand ∈ entries → match env.objectEntries? operand with
      | some inner => env.Inlines inner (properties operand)
      | none => properties operand = []) :
    env.Inlines entries (entries.flatMap (env.propertiesOf properties)) := by
  induction entries with
  | nil => exact .nil
  | cons entry rest ih =>
    have others := ih fun operand member => written operand (List.mem_cons_of_mem _ member)
    rw [List.flatMap_cons]
    cases entry with
    | property key value => exact .property key value others
    | computed name value =>
      rw [propertiesOf]
      cases known : env.string? name with
      | some key => exact .computed value known others
      | none => exact .unknown value known others
    | spread operand =>
      have here := written operand List.mem_cons_self
      rw [propertiesOf]
      cases found : env.objectEntries? operand with
      | some inner =>
        rw [found] at here
        exact .spread found (here.append others)
      | none =>
        rw [found] at here
        rw [here]
        exact .nothing found others
    | other => exact .other others

/-- Where spreads are not nested deeper than they are read, what comes of entries is what they are when
written out. -/
theorem Environment.inlines_propertiesTo {depth : Nat} {entries : List Entry}
    (nested : env.NestsWithin depth entries) : env.Inlines entries (env.propertiesTo depth entries) := by
  induction depth generalizing entries with
  | zero =>
    rw [propertiesTo]
    refine env.inlines_flatMap fun operand member => ?_
    rw [nested operand member]
  | succ depth ih =>
    rw [propertiesTo]
    refine env.inlines_flatMap fun operand member => ?_
    cases found : env.objectEntries? operand with
    | some inner => exact ih (nested operand member inner found)
    | none => rfl

/-- A spread can be replaced by the entries of its operand. -/
theorem Environment.membersTo_inline {depth : Nat} {before after inner : List Entry} {operand : Term}
    (nested : env.NestsWithin depth (before ++ .spread operand :: after))
    (found : env.objectEntries? operand = some inner) :
    env.membersTo depth (before ++ .spread operand :: after) =
      env.membersTo depth (before ++ inner ++ after) := by
  have member : Entry.spread operand ∈ before ++ .spread operand :: after :=
    List.mem_append_right _ List.mem_cons_self
  cases depth with
  | zero =>
    rw [nested operand member] at found
    cases found
  | succ depth =>
    have shallow : env.NestsWithin depth inner := nested operand member inner found
    have same : env.propertiesTo (depth + 1) (before ++ .spread operand :: after) =
        env.propertiesTo (depth + 1) (before ++ inner ++ after) := by
      rw [← List.singleton_append, propertiesTo_append, propertiesTo_append, propertiesTo_append,
        propertiesTo_append, propertiesTo_spread env depth found, propertiesTo_succ shallow,
        List.append_assoc]
    rw [membersTo_eq, membersTo_eq, same]

/-- **Spreads merge as if they were written out.** Where spread objects are nested no deeper than they
are read, each spread of an object can be replaced by the properties of that object in its place, and the
members are the properties of the literal with all spreads written out: no key comes twice, the keys
stand in the order of their first properties, and each has the value of its last one. -/
theorem Environment.members_inline {depth : Nat} {entries : List Entry}
    (nested : env.NestsWithin depth entries) :
    (∀ before operand after inner, entries = before ++ .spread operand :: after →
      env.objectEntries? operand = some inner →
        env.membersTo depth entries = env.membersTo depth (before ++ inner ++ after)) ∧
    ∃ properties, env.Inlines entries properties ∧
      ((env.membersTo depth entries).map Prod.fst).Nodup ∧
      (env.membersTo depth entries).map Prod.fst = (properties.map Prod.fst).eraseDups ∧
      ∀ key, (env.membersTo depth entries).lookup key = properties.reverse.lookup key := by
  constructor
  · rintro before operand after inner rfl found
    exact membersTo_inline nested found
  · refine ⟨env.propertiesTo depth entries, inlines_propertiesTo nested, ?_⟩
    rw [membersTo_eq]
    exact ⟨Keyed.nodup_ofList _, Keyed.keys_ofList _, Keyed.lookup_ofList _⟩

end Inlined

/-- Two layers of spreads: a call of `object` spreads an object and repeats one of its keys. -/
def layeredEnvironment : Environment :=
  ⟨[("base", ⟨.object [.property "id" ⟨.number, "1"⟩, .property "name" ⟨.number, "2"⟩], "base"⟩),
    ("named", ⟨.call ⟨.member ⟨.name "v", "v"⟩ "object", "v.object"⟩
      [⟨.object [.spread ⟨.name "base", "base"⟩, .property "name" ⟨.number, "3"⟩], "inner"⟩],
      "named"⟩)], []⟩

/-- An object around these layers: `name` comes first because it stands in front of the spread, and has
its value from the outer layer; `id` comes from the inner layer, and has its value from the object. -/
theorem layeredEnvironment_inlined :
    let entries : List Entry := [.property "name" ⟨.number, "0"⟩, .spread ⟨.name "named", "named"⟩,
      .property "id" ⟨.number, "4"⟩]
    layeredEnvironment.NestsWithin maximalSteps entries ∧
      layeredEnvironment.members entries = layeredEnvironment.members
        ([.property "name" ⟨.number, "0"⟩] ++
          [.spread ⟨.name "base", "base"⟩, .property "name" ⟨.number, "3"⟩] ++
            [.property "id" ⟨.number, "4"⟩]) ∧
      layeredEnvironment.members entries = [("name", ⟨.number, "3"⟩), ("id", ⟨.number, "4"⟩)] := by
  intro entries
  have nested : layeredEnvironment.NestsWithin maximalSteps entries := by
    rw [maximalSteps, Environment.NestsWithin]
    intro operand member inner found
    simp [entries] at member
    subst member
    cases found
    rw [Environment.NestsWithin]
    intro operand member inner found
    simp at member
    subst member
    cases found
    rw [Environment.NestsWithin]
    intro operand member
    simp at member
  exact ⟨nested, (Environment.members_inline nested).1 _ _ _ _ rfl rfl, rfl⟩

end Script

end SwiftBindings
