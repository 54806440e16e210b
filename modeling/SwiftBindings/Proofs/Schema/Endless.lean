/-
**Schemas whose reading comes to an end.**

A table is read from the outside in: below a call of `index` stands the table that the index is added
to, below it perhaps another such call, and each of these tables may be a name that is followed to its
value. `Environment.indexed?` is one step of this descent. Reading a table has no end exactly when the
descent has none (`Environment.table?_eq_none_iff`), and the descent has none exactly when it comes
back to a term that it has passed (`Environment.isEndless_iff_returns`): all terms it meets lie on the
spine of its start or of a value that the module names, and those are finitely many.

Names, spread objects and builders in each other are followed to a bounded depth, so nothing else can
keep a reading from ending (`Schema.ofItems?_isSome_iff`).
-/

import Mathlib.Data.Fintype.Pigeonhole
import Mathlib.Data.Set.Finite.Basic
import Mathlib.Tactic.Choose
import SwiftBindings.Schema.Source

namespace SwiftBindings

namespace Script

/-! ### The spine of a term -/

/-- The term with those that stand under its parentheses, callees and selected members. -/
def Term.spine : Term → List Term
  | ⟨.wrapped inner, text⟩ => ⟨.wrapped inner, text⟩ :: inner.spine
  | ⟨.member object property, text⟩ => ⟨.member object property, text⟩ :: object.spine
  | ⟨.call callee arguments, text⟩ => ⟨.call callee arguments, text⟩ :: callee.spine
  | term => [term]

theorem Term.self_mem_spine (term : Term) : term ∈ term.spine := by
  unfold Term.spine
  split <;> exact List.mem_cons_self

/-- What stands on the spine of a term on a spine stands on that spine. -/
theorem Term.spine_subset (term other : Term) (member : other ∈ term.spine) :
    other.spine ⊆ term.spine := by
  fun_induction Term.spine term with
  | case1 inner text step | case2 inner _ text step | case3 inner _ text step =>
    rcases List.mem_cons.mp member with rfl | inside
    · rw [Term.spine]
      exact fun _ found => found
    · exact fun _ found => List.mem_cons_of_mem _ (step inside found)
  | case4 term =>
    rw [List.mem_singleton.mp member, Term.spine]
    · exact List.Subset.refl _
    all_goals assumption

/-- The object whose member is called stands on the spine of the call. -/
theorem Term.receiver_mem_spine {term receiver : Term} {call : Call}
    (called : term.call? = some call) (selected : call.receiver = some receiver) :
    receiver ∈ term.spine := by
  unfold Term.call? at called
  split at called
  · cases called
    cases selected
  · rename_i object property text arguments form
    cases called
    cases selected
    obtain ⟨shape, whole⟩ := term
    cases form
    rw [Term.spine, Term.spine]
    exact List.mem_cons_of_mem _ (List.mem_cons_of_mem _ receiver.self_mem_spine)
  · cases called
    cases selected
  · cases called

/-! ### The terms that are met -/

/-- The terms that can be met on the way from a term: those on its spine and on the spines of the
values that the module names. -/
def Environment.reach (env : Environment) (start : Term) : List Term :=
  start.spine ++ env.bindings.flatMap fun binding => binding.2.spine

theorem Environment.self_mem_reach (env : Environment) (start : Term) : start ∈ env.reach start :=
  List.mem_append_left _ start.self_mem_spine

/-- What stands on the spine of a term that is met is met. -/
theorem Environment.spine_subset_reach (env : Environment) {start term : Term}
    (met : term ∈ env.reach start) : term.spine ⊆ env.reach start := by
  intro other found
  rcases List.mem_append.mp met with own | named
  · exact List.mem_append_left _ (start.spine_subset term own found)
  · obtain ⟨binding, declared, inside⟩ := List.mem_flatMap.mp named
    exact List.mem_append_right _
      (List.mem_flatMap.mpr ⟨binding, declared, binding.2.spine_subset term inside found⟩)

/-- The value of a name is met from everywhere. -/
theorem Environment.value_mem_reach (env : Environment) (start : Term) {name : String} {value : Term}
    (found : env.value? name = some value) : value ∈ env.reach start := by
  obtain ⟨binding, named, rfl⟩ := Option.map_eq_some_iff.mp found
  rw [List.findRev?_eq_find?_reverse] at named
  have declared : binding ∈ env.bindings := List.mem_reverse.mp (List.mem_of_find?_eq_some named)
  exact List.mem_append_right _
    (List.mem_flatMap.mpr ⟨binding, declared, binding.2.self_mem_spine⟩)

theorem Environment.step_mem_reach (env : Environment) {start term next : Term}
    (met : term ∈ env.reach start) (stepped : env.step? term = some next) :
    next ∈ env.reach start := by
  obtain ⟨form, text⟩ := term
  cases form with
  | wrapped inner =>
    cases stepped
    refine env.spine_subset_reach met ?_
    rw [Term.spine]
    exact List.mem_cons_of_mem _ next.self_mem_spine
  | name name => exact env.value_mem_reach start stepped
  | _ => cases stepped

/-- Following names and wrappers stays among the terms that can be met. -/
theorem Environment.follow_mem_reach (env : Environment) {start : Term} (steps : Nat) {term : Term}
    (met : term ∈ env.reach start) : env.follow steps term ∈ env.reach start := by
  induction steps generalizing term with
  | zero => exact met
  | succ steps ih =>
    rw [Environment.follow]
    split
    · exact ih (env.step_mem_reach met ‹_›)
    · exact met

end Script

open Script

/-! ### The descent below index calls -/

/-- The table that a term adds an index to, if it is a call that adds one. -/
def Script.Environment.indexed? (env : Environment) (term : Term) : Option Term :=
  (term.call?.bind Call.index?).map fun added => env.resolve added.1

/-- The term that so many steps of the descent lead to. -/
def Script.Environment.descend (env : Environment) : Nat → Term → Option Term
  | 0, term => some term
  | steps + 1, term => (env.indexed? term).bind (env.descend steps)

/-- The descent from a term has no end. -/
def Script.Environment.IsEndless (env : Environment) (term : Term) : Prop :=
  ∀ steps, (env.descend steps term).isSome

/-- The descent from a term comes back to a term that it has passed. -/
def Script.Environment.Returns (env : Environment) (term : Term) : Prop :=
  ∃ earlier later met, earlier < later ∧ env.descend earlier term = some met ∧
    env.descend later term = some met

theorem Script.Environment.indexed_mem_reach (env : Environment) {start term table : Term}
    (met : term ∈ env.reach start) (below : env.indexed? term = some table) :
    table ∈ env.reach start := by
  obtain ⟨added, adds, rfl⟩ := Option.map_eq_some_iff.mp below
  obtain ⟨call, called, isIndex⟩ := Option.bind_eq_some_iff.mp adds
  unfold Call.index? at isIndex
  split at isIndex
  · rename_i receiver kind selected _
    cases isIndex
    exact env.follow_mem_reach _
      (env.spine_subset_reach met (Term.receiver_mem_spine called selected))
  · cases isIndex

theorem Script.Environment.descend_mem_reach (env : Environment) {start : Term} (steps : Nat)
    {term met : Term} (inside : term ∈ env.reach start)
    (reached : env.descend steps term = some met) : met ∈ env.reach start := by
  induction steps generalizing term with
  | zero =>
    cases reached
    exact inside
  | succ steps ih =>
    obtain ⟨table, below, rest⟩ := Option.bind_eq_some_iff.mp reached
    exact ih (env.indexed_mem_reach inside below) rest

/-- Two parts of a descent make one. -/
theorem Script.Environment.descend_add (env : Environment) (first second : Nat) (term : Term) :
    env.descend (first + second) term = (env.descend first term).bind (env.descend second) := by
  induction first generalizing term with
  | zero => rw [Nat.zero_add, Environment.descend, Option.bind_some]
  | succ first ih =>
    rw [Nat.add_right_comm, Environment.descend, Environment.descend, Option.bind_assoc]
    exact congrArg _ (funext ih)

/-- **A descent without an end comes back to where it was, and one that comes back has no end.** -/
theorem Script.Environment.isEndless_iff_returns (env : Environment) (term : Term) :
    env.IsEndless term ↔ env.Returns term := by
  constructor
  · intro endless
    choose met reached using fun steps => Option.isSome_iff_exists.mp (endless steps)
    have inside : ∀ steps, met steps ∈ env.reach term := fun steps =>
      env.descend_mem_reach steps (env.self_mem_reach term) (reached steps)
    have : Finite {other // other ∈ env.reach term} := (List.finite_toSet _).to_subtype
    obtain ⟨earlier, later, apart, same⟩ := Finite.exists_ne_map_eq_of_infinite
      fun steps => (⟨met steps, inside steps⟩ : {other // other ∈ env.reach term})
    have same : met earlier = met later := congrArg Subtype.val same
    rcases Nat.lt_or_gt_of_ne apart with before | after
    · exact ⟨earlier, later, met earlier, before, reached earlier, same ▸ reached later⟩
    · exact ⟨later, earlier, met later, after, reached later, same ▸ reached earlier⟩
  · rintro ⟨earlier, later, met, before, first, second⟩
    -- Each turn of the cycle leads from `met` to itself and takes at least one step.
    have turn : env.descend (later - earlier) met = some met := by
      have split := env.descend_add earlier (later - earlier) term
      rw [Nat.add_sub_cancel' before.le, first, second] at split
      exact split.symm
    have turns : ∀ count, env.descend (count * (later - earlier)) met = some met := by
      intro count
      induction count with
      | zero => rw [Nat.zero_mul, Environment.descend]
      | succ count ih => rw [Nat.succ_mul, env.descend_add, ih, Option.bind_some, turn]
    have far : ∀ count, env.descend (earlier + count * (later - earlier)) term = some met := by
      intro count
      rw [env.descend_add, first, Option.bind_some, turns]
    intro steps
    have room : steps ≤ earlier + steps * (later - earlier) :=
      (Nat.le_mul_of_pos_right steps (Nat.sub_pos_of_lt before)).trans (Nat.le_add_left _ _)
    have whole := far steps
    rw [← Nat.add_sub_cancel' room, env.descend_add] at whole
    obtain ⟨reached, here, _⟩ := Option.bind_eq_some_iff.mp whole
    rw [here, Option.isSome_some]

/-! ### Reading tables -/

/-- A call of another kind ends the descent: the table below it is read at once. -/
theorem Script.Environment.table?_of_end (env : Environment) (name : String)
    (indexes : List Index) {term : Term} (last : env.indexed? term = none) :
    ∃ table, env.table? name indexes term = some table := by
  rw [Script.Environment.table?]
  cases called : term.call? with
  | none => exact ⟨_, rfl⟩
  | some call =>
    have plain : call.index? = none := by
      rw [Environment.indexed?, called] at last
      exact Option.map_eq_none_iff.mp last
    simp only [plain]
    exact ⟨_, rfl⟩

/-- A call that adds no index is read as a table definition. -/
theorem Script.Environment.table?_of_call (env : Environment) (name : String) {last : Term}
    {call : Call} (ends : env.indexed? last = none) (called : last.call? = some call)
    (indexes : List Index) :
    env.table? name indexes last = some (Table.ofCall env name indexes call) := by
  have plain : call.index? = none := by
    rw [Environment.indexed?, called] at ends
    exact Option.map_eq_none_iff.mp ends
  rw [Script.Environment.table?]
  simp only [called, plain]

/-- Below an index call the table is read with one more index. -/
theorem Script.Environment.table?_of_indexed (env : Environment) (name : String)
    (indexes : List Index) {term table : Term} (below : env.indexed? term = some table) :
    ∃ index, env.table? name indexes term = env.table? name (index :: indexes) table := by
  obtain ⟨added, adds, rfl⟩ := Option.map_eq_some_iff.mp below
  obtain ⟨call, called, isIndex⟩ := Option.bind_eq_some_iff.mp adds
  refine ⟨.ofArguments env added.2.1 added.2.2, ?_⟩
  rw [Script.Environment.table?]
  simp only [called, isIndex]

/-- A descent that ends is read. -/
theorem Script.Environment.table?_of_descend (env : Environment) (name : String) (steps : Nat)
    (indexes : List Index) {term : Term} (ended : env.descend steps term = none) :
    ∃ table, env.table? name indexes term = some table := by
  induction steps generalizing indexes term with
  | zero => cases ended
  | succ steps ih =>
    cases below : env.indexed? term with
    | none => exact env.table?_of_end name indexes below
    | some table =>
      rw [Environment.descend, below, Option.bind_some] at ended
      obtain ⟨index, same⟩ := env.table?_of_indexed name indexes below
      rw [same]
      exact ih (index :: indexes) ended

/-- What is read has a descent that ends. -/
theorem Script.Environment.descend_of_table? (env : Environment) (name : String)
    (indexes : List Index) (term : Term) (table : Except SchemaFault Table)
    (read : env.table? name indexes term = some table) :
    ∃ steps, env.descend steps term = none := by
  refine Script.Environment.table?.partial_correctness env name
    (fun _ term _ => ∃ steps, env.descend steps term = none) ?_ indexes term table read
  intro inner known indexes term table read
  cases below : env.indexed? term with
  | none => exact ⟨1, by rw [Environment.descend, below, Option.bind_none]⟩
  | some next =>
    obtain ⟨added, adds, rfl⟩ := Option.map_eq_some_iff.mp below
    obtain ⟨call, called, isIndex⟩ := Option.bind_eq_some_iff.mp adds
    simp only [called, isIndex] at read
    obtain ⟨steps, ended⟩ := known _ _ _ read
    exact ⟨steps + 1, by rw [Environment.descend, below, Option.bind_some, ended]⟩

/-- **Reading a table comes to no end exactly when the descent below its index calls returns.** -/
theorem Script.Environment.table?_eq_none_iff (env : Environment) (name : String)
    (indexes : List Index) (term : Term) :
    env.table? name indexes term = none ↔ env.Returns term := by
  rw [← env.isEndless_iff_returns]
  constructor
  · intro unread steps
    by_contra ended
    obtain ⟨table, read⟩ :=
      env.table?_of_descend name steps indexes (Option.not_isSome_iff_eq_none.mp ended)
    rw [unread] at read
    cases read
  · intro endless
    cases read : env.table? name indexes term with
    | none => rfl
    | some table =>
      obtain ⟨steps, ended⟩ := env.descend_of_table? name indexes term table read
      have more := endless steps
      rw [ended] at more
      cases more

/-! ### Reading schemas -/

/-- **Reading entries comes to no end exactly at an entry whose table has none, behind entries that
all have tables.** -/
theorem tablesOfEntries_eq_none_iff (env : Environment) (entries : Members) :
    tablesOfEntries env entries = none ↔
      ∃ before entry after, entries = before ++ entry :: after ∧
        (∀ earlier ∈ before, ∃ table,
          env.table? earlier.1 [] (env.resolve earlier.2) = some (.ok table)) ∧
        env.Returns (env.resolve entry.2) := by
  induction entries with
  | nil =>
    constructor
    · intro unread
      cases unread
    · rintro ⟨before, entry, after, split, _⟩
      cases before <;> cases split
  | cons first rest ih =>
    obtain ⟨name, value⟩ := first
    rw [tablesOfEntries]
    cases read : env.table? name [] (env.resolve value) with
    | none =>
      have returns := (env.table?_eq_none_iff name [] _).mp read
      exact ⟨fun _ => ⟨[], (name, value), rest, rfl, List.forall_mem_nil _, returns⟩,
        fun _ => rfl⟩
    | some result =>
      -- The first entry is read, so the one without an end is among the rest.
      have ended : ¬ env.Returns (env.resolve value) := fun returns => by
        rw [(env.table?_eq_none_iff name [] _).mpr returns] at read
        cases read
      cases result with
      | error fault =>
        constructor
        · intro unread
          cases unread
        · rintro ⟨before, entry, after, split, known, returns⟩
          cases before with
          | nil =>
            cases split
            exact absurd returns ended
          | cons other before =>
            cases split
            obtain ⟨table, found⟩ := known _ List.mem_cons_self
            rw [read] at found
            cases found
      | ok table =>
        rw [Option.bind_some, Option.map_eq_none_iff, ih]
        constructor
        · rintro ⟨before, entry, after, rfl, known, returns⟩
          refine ⟨(name, value) :: before, entry, after, rfl, fun earlier member => ?_, returns⟩
          rcases List.mem_cons.mp member with rfl | inside
          · exact ⟨table, read⟩
          · exact known earlier inside
        · rintro ⟨before, entry, after, split, known, returns⟩
          cases before with
          | nil =>
            cases split
            exact absurd returns ended
          | cons other before =>
            cases split
            exact ⟨before, entry, after, rfl,
              fun earlier member => known earlier (List.mem_cons_of_mem _ member), returns⟩

/-- The schema definition of a module has an entry whose descent returns, behind entries that all
have tables. -/
def Script.Environment.HasEndlessTable (env : Environment) : Prop :=
  ∃ argument others literal before entry after,
    env.schemaDefinition? = some (argument :: others) ∧
    (env.resolve argument).form = .object literal ∧
    env.members literal = before ++ entry :: after ∧
    (∀ earlier ∈ before, ∃ table,
      env.table? earlier.1 [] (env.resolve earlier.2) = some (.ok table)) ∧
    env.Returns (env.resolve entry.2)

theorem schemaTables_eq_none_iff (env : Environment) :
    schemaTables env = none ↔ env.HasEndlessTable := by
  rw [schemaTables]
  cases defined : env.schemaDefinition? with
  | none =>
    constructor
    · intro unread
      cases unread
    · rintro ⟨_, _, _, _, _, _, found, _⟩
      rw [defined] at found
      cases found
  | some arguments =>
    rw [Option.map_eq_none_iff]
    cases arguments with
    | nil =>
      constructor
      · intro unread
        cases unread
      · rintro ⟨_, _, _, _, _, _, found, _⟩
        rw [defined] at found
        cases found
    | cons argument others =>
      rw [tablesOf]
      constructor
      · intro unread
        split at unread
        · rename_i literal form
          obtain ⟨before, entry, after, parts, known, returns⟩ :=
            (tablesOfEntries_eq_none_iff env _).mp unread
          exact ⟨argument, others, literal, before, entry, after, defined, form, parts, known,
            returns⟩
        · cases unread
      · rintro ⟨_, _, literal, before, entry, after, found, form, parts, known, returns⟩
        rw [defined] at found
        cases found
        simp only [form]
        exact (tablesOfEntries_eq_none_iff env _).mpr ⟨before, entry, after, parts, known, returns⟩

theorem Schema.read?_of_ok {path source : String} {items : List ModuleItem}
    (parsed : readModule source = .ok items) :
    Schema.read? path source = Schema.ofItems? path items := by
  delta Schema.read?
  rw [parsed]

/-- **Reading a schema from the items of a module comes to an end, with tables or a fault, exactly when
its definition comes to no table that is an index of itself.** -/
theorem Schema.ofItems?_isSome_iff (path : String) (items : List ModuleItem) :
    (Schema.ofItems? path items).isSome ↔ ¬ (Environment.ofItems items).HasEndlessTable := by
  rw [Schema.ofItems?, Option.isSome_map, ← Option.ne_none_iff_isSome, Ne, schemaTables_eq_none_iff]

/-- A table that is given as an index of itself: its reading comes to no end. -/
theorem Schema.read?_self_index :
    Schema.read? "schema.ts" "const t=t.index(),s=defineSchema(\x7bt\x7d)" = none := by
  have parsed : readModule "const t=t.index(),s=defineSchema(\x7bt\x7d)" = .ok
      [.binding "t" ⟨.call ⟨.member ⟨.name "t", "t"⟩ "index", "t.index"⟩ [], "t.index()"⟩,
        .binding "s" ⟨.call ⟨.name "defineSchema", "defineSchema"⟩
          [⟨.object [.property "t" ⟨.name "t", "t"⟩], "\x7bt\x7d"⟩], "defineSchema(\x7bt\x7d)"⟩] := by
    decide +kernel
  rw [Schema.read?_of_ok parsed]
  refine Option.map_eq_none_iff.mpr ((schemaTables_eq_none_iff _).mpr ?_)
  refine ⟨_, [], _, [], ("t", ⟨.name "t", "t"⟩), [], rfl, rfl, rfl, List.forall_mem_nil _, ?_⟩
  exact ⟨0, 1, _, Nat.zero_lt_one, rfl, rfl⟩

end SwiftBindings
