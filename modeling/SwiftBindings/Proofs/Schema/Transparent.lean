/-
**Names and wrappers are transparent.**

Where expressions of a module are wrapped or named (`Environment.Rewrites`), tables are read as before:
their index calls are found one below the other (`Environment.Rewrites.descend`), with the same indexes,
and their fields have the same validators up to texts. So the schema is the same up to texts
(`Schema.ofItems?_of_rewrites`), with one exception: where no default export defines the schema, the first
variable that stands for a definition does, and a new name may come first (`namedDefinition_differs`).
-/

import SwiftBindings.Proofs.Schema.Endless
import SwiftBindings.Proofs.Schema.Rewritten

namespace SwiftBindings

open Script

section Rewrites

variable {env env' : Environment} {fresh : List String}

/-! ### Fields and indexes -/

theorem Script.Environment.Rewrites.textless_fieldsOf (rewrites : env.Rewrites env' fresh) (depth : Nat)
    {entries entries' : List Entry} (same : List.Forall₂ (Entry.Rewritten env' fresh) entries entries') :
    Field.allTextless id (fieldsOf env (validatorTo env depth) entries) =
      Field.allTextless id (fieldsOf env' (validatorTo env' depth) entries') := by
  have members := rewrites.membersTo maximalSteps same
  rw [fieldsOf, fieldsOf, Environment.members, Environment.members]
  generalize env.membersTo maximalSteps entries = held, env'.membersTo maximalSteps entries' = held'
    at members ⊢
  induction members with
  | nil => rfl
  | cons entry _ ih =>
    rw [List.map_cons, List.map_cons, Field.allTextless_declare, Field.allTextless_declare, entry.1,
      rewrites.textless_validatorTo depth entry.2, ih]

theorem Script.Environment.Rewrites.listedStrings_eq (rewrites : env.Rewrites env' fresh) {term term' : Term}
    (same : Term.Rewritten env' fresh term term') : listedStrings env term = listedStrings env' term' := by
  have forms := rewrites.resolve same
  rw [listedStrings, listedStrings]
  generalize (env.resolve term).form = form, (env'.resolve term').form = form' at forms ⊢
  cases forms with
  | array inside => exact rewrites.strings_eq inside
  | _ => rfl

theorem Script.Environment.Rewrites.searchedFields_eq (rewrites : env.Rewrites env' fresh)
    (kind : IndexKind) {term term' : Term} (same : Term.Rewritten env' fresh term term') :
    searchedFields env kind term = searchedFields env' kind term' := by
  have forms := rewrites.resolve same
  rw [searchedFields, searchedFields]
  generalize (env.resolve term).form = form, (env'.resolve term').form = form' at forms ⊢
  cases forms with
  | object inside =>
    have members := rewrites.membersTo maximalSteps inside
    refine congrArg₂ (fun (first : Option String) (others : Option (List String)) =>
      first.toList ++ others.getD []) ?_ ?_
    · exact bind_related (lookup_related members _) fun value => rewrites.string?_eq value
    · exact map_related (lookup_related members _) fun value => rewrites.listedStrings_eq value
  | _ => rfl

theorem Script.Environment.Rewrites.index_eq (rewrites : env.Rewrites env' fresh) (kind : IndexKind)
    {arguments arguments' : List Term}
    (same : List.Forall₂ (Term.Rewritten env' fresh) arguments arguments') :
    Index.ofArguments env kind arguments = Index.ofArguments env' kind arguments' := by
  have second : Option.Rel (Term.Rewritten env' fresh) arguments[1]? arguments'[1]? := by
    cases same with
    | nil => exact .none
    | cons _ rest =>
      cases rest with
      | nil => exact .none
      | cons options _ => exact .some options
  unfold Index.ofArguments
  rw [rewrites.firstString?_eq same]
  generalize arguments[1]? = options, arguments'[1]? = options' at second ⊢
  cases second with
  | none => cases kind <;> rfl
  | some options =>
    cases kind with
    | index => exact congrArg _ (rewrites.listedStrings_eq options)
    | search | vector => exact congrArg _ (rewrites.searchedFields_eq _ options)

/-! ### Tables -/

theorem Script.Call.Rewritten.index? {call call' : Call} (same : Call.Rewritten env' fresh call call') :
    Option.Rel (fun added added' => Term.Rewritten env' fresh added.1 added'.1 ∧
      added.2.1 = added'.2.1 ∧ List.Forall₂ (Term.Rewritten env' fresh) added.2.2 added'.2.2)
        call.index? call'.index? := by
  obtain ⟨receiver, name, arguments⟩ := call
  obtain ⟨receiver', name', arguments'⟩ := call'
  obtain ⟨receivers, rfl, inside⟩ := same
  unfold Call.index?
  dsimp only at receivers inside ⊢
  cases receivers with
  | none => exact .none
  | some receiver =>
    cases name.bind IndexKind.ofMember? with
    | none => exact .none
    | some kind => exact .some ⟨receiver, rfl, inside⟩

/-- The forms of the terms are related. -/
abbrev Script.Term.SameForm (env : Environment) (fresh : List String) (term term' : Term) : Prop :=
  Form.Rewritten env fresh term.form term'.form

/-- Below related index calls stand related tables. -/
theorem Script.Environment.Rewrites.indexed? (rewrites : env.Rewrites env' fresh) {term term' : Term}
    (same : Term.SameForm env' fresh term term') :
    Option.Rel (Term.SameForm env' fresh) (env.indexed? term) (env'.indexed? term') := by
  rw [Environment.indexed?, Environment.indexed?]
  exact rel_map (rel_bind same.call? Call.Rewritten.index?) fun added => rewrites.resolve added.1

/-- Related descents lead to related terms, and end together. -/
theorem Script.Environment.Rewrites.descend (rewrites : env.Rewrites env' fresh) (steps : Nat)
    {term term' : Term} (same : Term.SameForm env' fresh term term') :
    Option.Rel (Term.SameForm env' fresh) (env.descend steps term) (env'.descend steps term') := by
  induction steps generalizing term term' with
  | zero => exact .some same
  | succ steps ih =>
    rw [Environment.descend, Environment.descend]
    exact rel_bind (rewrites.indexed? same) ih

theorem Script.Environment.Rewrites.textless_ofCall (rewrites : env.Rewrites env' fresh) (name : String)
    (indexes : List Index) {call call' : Call} (same : Call.Rewritten env' fresh call call') :
    (Table.ofCall env name indexes call).map (Table.textless id) =
      (Table.ofCall env' name indexes call').map (Table.textless id) := by
  have literals : Option.Rel (List.Forall₂ (Entry.Rewritten env' fresh))
      (call.arguments.head?.bind env.objectEntries?) (call'.arguments.head?.bind env'.objectEntries?) :=
    rel_bind (head?_related same.arguments) rewrites.objectEntries?
  rw [Table.ofCall, Table.ofCall, same.name]
  split
  · rfl
  · generalize call.arguments.head?.bind env.objectEntries? = entries,
      call'.arguments.head?.bind env'.objectEntries? = entries' at literals ⊢
    cases literals with
    | none => rfl
    | some inside =>
      have fields := rewrites.textless_fieldsOf maximalSteps inside
      exact congrArg (fun fields => Except.ok (Table.mk name fields indexes)) fields

/-- Where the descents end, the tables are the same up to texts. -/
theorem Script.Environment.Rewrites.textless_table?_of_descend (rewrites : env.Rewrites env' fresh)
    (name : String) {steps : Nat} (indexes : List Index) {term term' : Term}
    (same : Term.SameForm env' fresh term term') (ended : env.descend steps term = none) :
    (env.table? name indexes term).map (Except.map (Table.textless id)) =
      (env'.table? name indexes term').map (Except.map (Table.textless id)) := by
  induction steps generalizing indexes term term' with
  | zero => cases ended
  | succ steps ih =>
    have calls := same.call?
    rw [Environment.table?, Environment.table?]
    generalize called : term.call? = call, term'.call? = call' at calls ⊢
    cases calls with
    | none => rfl
    | @some call call' calls =>
      have added := calls.index?
      dsimp only
      generalize isIndex : call.index? = found, call'.index? = found' at added ⊢
      cases added with
      | none => exact congrArg some (rewrites.textless_ofCall name indexes calls)
      | @some added added' related =>
        obtain ⟨table, kind, arguments⟩ := added
        obtain ⟨table', kind', arguments'⟩ := added'
        obtain ⟨tables, rfl, inside⟩ := related
        have below : env.indexed? term = some (env.resolve table) := by
          rw [Environment.indexed?, called, Option.bind_some, isIndex]
          rfl
        rw [Environment.descend, below, Option.bind_some] at ended
        dsimp only at inside ⊢
        rw [rewrites.index_eq kind inside]
        exact ih _ (rewrites.resolve tables) ended

/-- **Tables are the same up to texts.** -/
theorem Script.Environment.Rewrites.textless_table? (rewrites : env.Rewrites env' fresh)
    (name : String) (indexes : List Index) {term term' : Term}
    (same : Term.SameForm env' fresh term term') :
    (env.table? name indexes term).map (Except.map (Table.textless id)) =
      (env'.table? name indexes term').map (Except.map (Table.textless id)) := by
  by_cases ended : ∃ steps, env.descend steps term = none
  · obtain ⟨steps, ended⟩ := ended
    exact rewrites.textless_table?_of_descend name indexes same ended
  · -- Neither descent ends, so neither table has a value.
    have endless : env.IsEndless term := fun steps =>
      Option.isSome_iff_ne_none.mpr fun none => ended ⟨steps, none⟩
    have endless' : env'.IsEndless term' := fun steps => by
      have both := rewrites.descend steps same
      have goes := endless steps
      generalize env.descend steps term = reached, env'.descend steps term' = reached' at both goes ⊢
      cases both with
      | none => exact goes
      | some => rfl
    rw [(env.table?_eq_none_iff name indexes term).mpr ((env.isEndless_iff_returns term).mp endless),
      (env'.table?_eq_none_iff name indexes term').mpr ((env'.isEndless_iff_returns term').mp endless')]

/-! ### Schemas -/

/-- Tables up to texts, as far as there are any. -/
def outlinedTables (read : Option (Except SchemaFault (List Table))) :
    Option (Except SchemaFault (List Table)) :=
  read.map (Except.map (List.map (Table.textless id)))

/-- The tables of entries up to texts, from the first table and the others up to texts. -/
theorem outlinedTables_cons (env : Environment) (name : String) (value : Term) (rest : Members) :
    outlinedTables (tablesOfEntries env ((name, value) :: rest)) =
      ((env.table? name [] (env.resolve value)).map (Except.map (Table.textless id))).bind
        fun read => match read with
          | .error fault => some (.error fault)
          | .ok table => (outlinedTables (tablesOfEntries env rest)).map (Except.map (table :: ·)) := by
  rw [tablesOfEntries]
  generalize env.table? name [] (env.resolve value) = first, tablesOfEntries env rest = others
  rcases first with _ | fault | table <;> rcases others with _ | fault | tables <;> rfl

theorem Script.Environment.Rewrites.outlinedTables_entries (rewrites : env.Rewrites env' fresh)
    {entries entries' : Members} (same : List.Forall₂ (Term.RewrittenUnder env' fresh) entries entries') :
    outlinedTables (tablesOfEntries env entries) = outlinedTables (tablesOfEntries env' entries') := by
  induction same with
  | nil => rfl
  | @cons entry entry' _ _ related _ ih =>
    obtain ⟨name, value⟩ := entry
    obtain ⟨name', value'⟩ := entry'
    obtain ⟨rfl, inside⟩ := related
    rw [outlinedTables_cons, outlinedTables_cons, ih,
      rewrites.textless_table? name [] (rewrites.resolve inside)]

theorem Script.Environment.Rewrites.outlinedTables_tablesOf (rewrites : env.Rewrites env' fresh)
    {arguments arguments' : List Term}
    (same : List.Forall₂ (Term.Rewritten env' fresh) arguments arguments') :
    outlinedTables (tablesOf env arguments) = outlinedTables (tablesOf env' arguments') := by
  cases same with
  | nil => rfl
  | @cons argument argument' _ _ related _ =>
    have forms := rewrites.resolve related
    rw [tablesOf, tablesOf]
    generalize (env.resolve argument).form = form, (env'.resolve argument').form = form' at forms ⊢
    cases forms with
    | object inside => exact rewrites.outlinedTables_entries (rewrites.membersTo maximalSteps inside)
    | _ => rfl

theorem schemaArguments?_eq (env : Environment) (term : Term) : schemaArguments? env term =
    (env.resolve term).call?.bind fun call =>
      if call.name = some "defineSchema" then some call.arguments else none := by
  rw [schemaArguments?]
  split
  · rename_i called
    rw [called]
    rfl
  · rename_i other
    cases called : (env.resolve term).call? with
    | none => rfl
    | some call =>
      rw [Option.bind_some, if_neg fun definition => other call.receiver call.arguments ?_]
      rw [called, ← definition]

/-- Related terms stand for schema definitions with related arguments, or for none. -/
theorem Script.Environment.Rewrites.schemaArguments? (rewrites : env.Rewrites env' fresh)
    {term term' : Term} (same : Term.Rewritten env' fresh term term') :
    Option.Rel (List.Forall₂ (Term.Rewritten env' fresh))
      (schemaArguments? env term) (schemaArguments? env' term') := by
  rw [schemaArguments?_eq, schemaArguments?_eq]
  refine rel_bind (rewrites.resolve same).call? fun call => ?_
  rw [call.name]
  split
  · exact .some call.arguments
  · exact .none

/-- The schema definition is the one that is found first where the variables of fresh names are left out
of the search. -/
def Script.Environment.FindsOwnDefinition (env : Environment) (fresh : List String) : Prop :=
  env.schemaDefinition? =
    (env.defaults ++ (env.without fresh).map Prod.snd).findSome? (schemaArguments? env)

theorem Script.Environment.Rewrites.schemaDefinition? (rewrites : env.Rewrites env' fresh)
    (finds : env'.FindsOwnDefinition fresh) :
    Option.Rel (List.Forall₂ (Term.Rewritten env' fresh))
      env.schemaDefinition? env'.schemaDefinition? := by
  rw [finds]
  refine findSome?_related (List.rel_append rewrites.defaults ?_) rewrites.schemaArguments?
  rw [List.forall₂_map_left_iff, List.forall₂_map_right_iff]
  exact rewrites.bindings.imp fun _ _ binding => binding.2

/-- The schema up to texts, as far as there is one. -/
def Schema.outlined (read : Option (Except Failure Schema)) : Option (Except Failure Schema) :=
  read.map (Except.map (Schema.textless id))

theorem Schema.outlined_tables (path : String) (tables : Option (Except SchemaFault (List Table))) :
    Schema.outlined ((tables.map (Except.mapError .invalidSchema)).map
      (Except.map fun tables => ⟨path, tables⟩)) =
        ((outlinedTables tables).map (Except.mapError .invalidSchema)).map
          (Except.map fun tables => ⟨path, tables⟩) := by
  rcases tables with _ | fault | tables <;> rfl

end Rewrites

/-! ### A definition inside another one -/

/-- A call of a function with one argument, without blanks. -/
def callOf (name : String) (argument : Term) : Term :=
  ⟨.call ⟨.name name, name⟩ [argument], name ++ "(" ++ argument.text ++ ")"⟩

/-- An object literal with one property, without blanks. -/
def objectOf (key : String) (value : Term) : Term :=
  ⟨.object [.property key value], "\x7b" ++ key ++ ":" ++ value.text ++ "\x7d"⟩

/-- The schema definition with one table. -/
def definitionOf (table : Term) : Term := callOf "defineSchema" (objectOf "t" table)

/-- The table with one field. -/
def tableOf (field : Term) : Term := callOf "defineTable" (objectOf "x" field)

/-- A definition of a schema without tables. -/
def emptyDefinition : Term := callOf "defineSchema" ⟨.object [], "\x7b\x7d"⟩

/-- A schema with a field whose value is a definition of a schema. -/
def nestedDefinition : String :=
  "const s=defineSchema(\x7bt:defineTable(\x7bx:defineSchema(\x7b\x7d)\x7d)\x7d)"

theorem readModule_nestedDefinition : readModule nestedDefinition =
    .ok [.binding "s" (definitionOf (tableOf emptyDefinition))] := by
  decide +kernel

section Kept

variable {env : Environment} {fresh : List String}

theorem emptyDefinition_kept (known : "defineSchema" ∉ fresh) :
    Term.Rewritten env fresh emptyDefinition emptyDefinition :=
  .kept (.call (.name known) (.cons (.kept (.object .nil) rfl) .nil)) rfl

theorem tableOf_kept (known : "defineTable" ∉ fresh) {field field' : Term}
    (inside : Term.Rewritten env fresh field field') :
    Term.Rewritten env fresh (tableOf field) (tableOf field') :=
  .kept (.call (.name known) (.cons (.kept (.object (.cons (.property "x" inside) .nil)) rfl) .nil)) rfl

theorem definitionOf_kept (known : "defineSchema" ∉ fresh) {table table' : Term}
    (inside : Term.Rewritten env fresh table table') :
    Term.Rewritten env fresh (definitionOf table) (definitionOf table') :=
  .kept (.call (.name known) (.cons (.kept (.object (.cons (.property "t" inside) .nil)) rfl) .nil)) rfl

end Kept

theorem read?_nestedDefinition : Schema.read? "schema.ts" nestedDefinition = some (.ok ⟨"schema.ts",
    [⟨"t", [.declare "x" (.ofGap "defineSchema(\x7b\x7d)" .unsupportedBuilder) false], []⟩]⟩) := by
  let env := Environment.ofItems [.binding "s" (definitionOf (tableOf emptyDefinition))]
  have called : (env.resolve (tableOf emptyDefinition)).call? = some ⟨_, _, _⟩ := rfl
  have tables : schemaTables env = some (.ok [⟨"t",
      [.declare "x" (.ofGap "defineSchema(\x7b\x7d)" .unsupportedBuilder) false], []⟩]) := by
    show (tablesOfEntries env [("t", tableOf emptyDefinition)]).map _ = _
    rw [tablesOfEntries, env.table?_of_call "t" rfl called []]
    rfl
  rw [Schema.read?_of_ok readModule_nestedDefinition]
  show (schemaTables env).map _ = _
  rw [tables]
  rfl

/-- **Naming and wrapping are transparent.** Where expressions of a module are put in parentheses or
assertions, or made the values of fresh names and replaced by these, the schema that is read is the same
up to the texts of unknown values. Every chain of names and wrappers is followed to its end, and the
search for the schema definition finds what it would find without the fresh names. -/
theorem Schema.ofItems?_of_rewrites {path : String} {items items' : List ModuleItem}
    {fresh : List String}
    (rewrites : (Environment.ofItems items).Rewrites (Environment.ofItems items') fresh)
    (finds : (Environment.ofItems items').FindsOwnDefinition fresh) :
    Schema.outlined (Schema.ofItems? path items') = Schema.outlined (Schema.ofItems? path items) := by
  have definitions := rewrites.schemaDefinition? finds
  rw [Schema.ofItems?, Schema.ofItems?, schemaTables, schemaTables]
  generalize (Environment.ofItems items).schemaDefinition? = arguments,
    (Environment.ofItems items').schemaDefinition? = arguments' at definitions ⊢
  cases definitions with
  | none => rfl
  | some inside =>
    dsimp only
    rw [Schema.outlined_tables, Schema.outlined_tables, rewrites.outlinedTables_tablesOf inside]

/-- The module with the inner definition in parentheses, inside a table with a name of its own. -/
def wrappedDefinition : String :=
  "const d=defineTable(\x7bx:(defineSchema(\x7b\x7d))\x7d),s=defineSchema(\x7bt:d\x7d)"

/-- Naming the table and wrapping the inner definition is transparent. -/
theorem wrappedDefinition_transparent : ∃ items items' : List ModuleItem,
    readModule nestedDefinition = .ok items ∧ readModule wrappedDefinition = .ok items' ∧
    (Environment.ofItems items).Rewrites (Environment.ofItems items') ["d"] ∧
    (Environment.ofItems items').FindsOwnDefinition ["d"] ∧
    Schema.outlined (Schema.read? "schema.ts" wrappedDefinition) =
      Schema.outlined (Schema.read? "schema.ts" nestedDefinition) := by
  have parsed' : readModule wrappedDefinition = .ok
      [.binding "d" (tableOf ⟨.wrapped emptyDefinition, "(defineSchema(\x7b\x7d))"⟩),
        .binding "s" (definitionOf ⟨.name "d", "d"⟩)] := by
    decide +kernel
  have rewrites : (Environment.ofItems [.binding "s" (definitionOf (tableOf emptyDefinition))]).Rewrites
      (.ofItems [.binding "d" (tableOf ⟨.wrapped emptyDefinition, "(defineSchema(\x7b\x7d))"⟩),
        .binding "s" (definitionOf ⟨.name "d", "d"⟩)]) ["d"] := by
    refine ⟨.cons ⟨rfl, ?_⟩ .nil, .nil⟩
    refine definitionOf_kept (by decide) (.named List.mem_cons_self rfl (tableOf_kept (by decide) ?_) rfl)
    exact .wrapped (emptyDefinition_kept (by decide)) rfl
  refine ⟨_, _, readModule_nestedDefinition, parsed', rewrites, rfl, ?_⟩
  rw [Schema.read?_of_ok parsed', Schema.read?_of_ok readModule_nestedDefinition]
  exact Schema.ofItems?_of_rewrites rewrites rfl

/-- The module with the inner definition under a name of its own. -/
def namedDefinition : String :=
  "const f=defineSchema(\x7b\x7d),s=defineSchema(\x7bt:defineTable(\x7bx:f\x7d)\x7d)"

/-- Naming a definition that is the value of a field is not transparent: the name comes first, so its
definition without tables is taken for the schema. -/
theorem namedDefinition_differs : ∃ items items' : List ModuleItem,
    readModule nestedDefinition = .ok items ∧ readModule namedDefinition = .ok items' ∧
    (Environment.ofItems items).Rewrites (Environment.ofItems items') ["f"] ∧
    Schema.read? "schema.ts" nestedDefinition = some (.ok ⟨"schema.ts", [⟨"t",
      [.declare "x" (.ofGap "defineSchema(\x7b\x7d)" .unsupportedBuilder) false], []⟩]⟩) ∧
    Schema.read? "schema.ts" namedDefinition = some (.ok ⟨"schema.ts", []⟩) := by
  have parsed' : readModule namedDefinition = .ok [.binding "f" emptyDefinition,
      .binding "s" (definitionOf (tableOf ⟨.name "f", "f"⟩))] := by
    decide +kernel
  refine ⟨_, _, readModule_nestedDefinition, parsed', ⟨.cons ⟨rfl, ?_⟩ .nil, .nil⟩,
    read?_nestedDefinition, ?_⟩
  · refine definitionOf_kept (by decide) (tableOf_kept (by decide) ?_)
    exact .named List.mem_cons_self rfl (emptyDefinition_kept (by decide)) rfl
  · rw [Schema.read?_of_ok parsed']
    rfl

end SwiftBindings
