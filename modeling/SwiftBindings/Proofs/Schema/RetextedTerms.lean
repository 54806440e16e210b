/-
**Tables are read from terms, not from their texts.**

Nothing that is read from a module looks at the texts of its terms. Where the texts are changed
(`Environment.retext`), terms stand for the same terms with changed texts, and so it is with calls,
entries and members of objects, recipes, and the descent below index calls. In the end the change shows
in the texts of unknown values, and nowhere else (`Schema.ofItems?_retext`).

**The main statement.** `Schema.exists_keptSpans`: a schema keeps the excerpts at certain spans. Two texts
of the same syntax trees and keys define the same schema exactly if they have the same excerpts there.
-/

import SwiftBindings.Proofs.Schema.Transparent
import SwiftBindings.Proofs.Schema.UnknownTexts
import SwiftBindings.Proofs.Script.KeptTexts

namespace SwiftBindings

namespace Script

variable (change : String → String)

/-- The call with the texts of the terms in it changed. -/
def Call.retext (call : Call) : Call :=
  ⟨call.receiver.map (Term.retext change), call.name, call.arguments.map (Term.retext change)⟩

/-- The members with the texts of the terms in them changed. -/
def retextMembers (members : Members) : Members :=
  members.map fun entry => (entry.1, entry.2.retext change)

/-- The module with the texts of its terms changed. -/
def Environment.retext (env : Environment) : Environment :=
  ⟨retextMembers change env.bindings, env.defaults.map (Term.retext change)⟩

theorem Term.form_retext (term : Term) : (term.retext change).form = term.form.retext change := by
  obtain ⟨form, text⟩ := term
  rfl

theorem Term.text_retext (term : Term) : (term.retext change).text = change term.text := by
  obtain ⟨form, text⟩ := term
  rfl

section Retext

variable (env : Environment)

/-! ### What terms stand for -/

theorem Environment.value?_retext (name : String) :
    (env.retext change).value? name = (env.value? name).map (Term.retext change) := by
  rw [Environment.value?, Environment.value?, Environment.retext, retextMembers,
    List.findRev?_eq_find?_reverse, List.findRev?_eq_find?_reverse, ← List.map_reverse,
    List.find?_map, Option.map_map, Option.map_map]
  rfl

theorem Environment.step?_retext (term : Term) :
    (env.retext change).step? (term.retext change) = (env.step? term).map (Term.retext change) := by
  obtain ⟨form, text⟩ := term
  cases form with
  | name name => exact env.value?_retext change name
  | _ => rfl

theorem Environment.follow_retext (steps : Nat) (term : Term) :
    (env.retext change).follow steps (term.retext change) = (env.follow steps term).retext change := by
  induction steps generalizing term with
  | zero => rfl
  | succ steps ih =>
    rw [Environment.follow, Environment.follow, env.step?_retext]
    cases env.step? term with
    | none => rfl
    | some next => exact ih next

/-- **A term with changed texts stands for what the term stands for, with changed texts.** -/
theorem Environment.resolve_retext (term : Term) :
    (env.retext change).resolve (term.retext change) = (env.resolve term).retext change :=
  env.follow_retext change maximalSteps term

theorem Environment.string?_retext (term : Term) :
    (env.retext change).string? (term.retext change) = env.string? term := by
  rw [Environment.string?, Environment.string?, env.resolve_retext]
  obtain ⟨form, text⟩ := env.resolve term
  cases form <;> rfl

theorem Environment.firstString?_retext (terms : List Term) :
    (terms.map (Term.retext change)).head?.bind (env.retext change).string? =
      terms.head?.bind env.string? := by
  cases terms with
  | nil => rfl
  | cons term rest => exact env.string?_retext change term

theorem Environment.strings_retext (terms : List Term) :
    (env.retext change).strings (terms.map (Term.retext change)) = env.strings terms := by
  rw [Environment.strings, Environment.strings, List.filterMap_map]
  exact congrArg (List.filterMap · terms) (funext (env.string?_retext change))

/-! ### Calls and objects -/

theorem Term.call?_retext (term : Term) :
    (term.retext change).call? = term.call?.map (Call.retext change) := by
  obtain ⟨form, text⟩ := term
  cases form with
  | call callee arguments =>
    obtain ⟨form, text⟩ := callee
    cases form <;> simp [Term.retext, Form.retext, Term.call?, Call.retext, retextTerms_eq_map]
  | _ => rfl

theorem Keyed.put_retext (key : String) (value : Term) (members : Members) :
    Keyed.put key (value.retext change) (retextMembers change members) =
      retextMembers change (Keyed.put key value members) := by
  induction members with
  | nil => rfl
  | cons entry rest ih =>
    rw [retextMembers, List.map_cons, ← retextMembers, Keyed.put, Keyed.put, ih]
    split <;> rfl

theorem Keyed.extend_retext (members more : Members) :
    Keyed.extend (retextMembers change members) (retextMembers change more) =
      retextMembers change (Keyed.extend members more) := by
  induction more generalizing members with
  | nil => rfl
  | cons entry rest ih =>
    have first : Keyed.extend members (entry :: rest) =
        Keyed.extend (Keyed.put entry.1 entry.2 members) rest := rfl
    rw [first, ← ih, ← Keyed.put_retext]
    rfl

theorem Environment.mergeEntry_retext {spread spread' : Term → Members}
    (spreads : ∀ term, spread' (term.retext change) = retextMembers change (spread term))
    (members : Members) (entry : Entry) :
    (env.retext change).mergeEntry spread' (retextMembers change members) (entry.retext change) =
      retextMembers change (env.mergeEntry spread members entry) := by
  cases entry with
  | property key value => exact Keyed.put_retext change key value members
  | computed key value =>
    rw [Entry.retext, Environment.mergeEntry, Environment.mergeEntry, env.string?_retext]
    cases env.string? key with
    | none => rfl
    | some key => exact Keyed.put_retext change key value members
  | spread operand =>
    rw [Entry.retext, Environment.mergeEntry, Environment.mergeEntry, spreads]
    exact Keyed.extend_retext change members (spread operand)
  | other => rfl

theorem Environment.mergeEntries_retext {spread spread' : Term → Members}
    (spreads : ∀ term, spread' (term.retext change) = retextMembers change (spread term))
    (entries : List Entry) (members : Members) :
    (entries.map (Entry.retext change)).foldl ((env.retext change).mergeEntry spread')
        (retextMembers change members) =
      retextMembers change (entries.foldl (env.mergeEntry spread) members) := by
  induction entries generalizing members with
  | nil => rfl
  | cons entry rest ih =>
    rw [List.map_cons, List.foldl_cons, List.foldl_cons, env.mergeEntry_retext change spreads, ih]

theorem Form.entries?_retext (form : Form) :
    (form.retext change).entries? = form.entries?.map (List.map (Entry.retext change)) := by
  cases form with
  | object entries => exact congrArg some (retextEntries_eq_map change entries)
  | _ => rfl

theorem Environment.calledEntries?_retext (call : Call) :
    (env.retext change).calledEntries? (call.retext change) =
      (env.calledEntries? call).map (List.map (Entry.retext change)) := by
  rw [Environment.calledEntries?, Environment.calledEntries?, Call.retext]
  split
  · cases call.arguments with
    | nil => rfl
    | cons argument rest =>
      rw [List.map_cons, List.head?_cons, List.head?_cons, Option.bind_some, Option.bind_some,
        env.resolve_retext, Term.form_retext]
      exact Form.entries?_retext change _
  · rfl

theorem Environment.objectEntries?_retext (term : Term) :
    (env.retext change).objectEntries? (term.retext change) =
      (env.objectEntries? term).map (List.map (Entry.retext change)) := by
  rw [env.objectEntries?_eq, (env.retext change).objectEntries?_eq, env.resolve_retext,
    Term.call?_retext, Term.form_retext, Form.entries?_retext]
  cases (env.resolve term).form.entries? with
  | some entries => rfl
  | none =>
    cases (env.resolve term).call? with
    | none => rfl
    | some call => exact env.calledEntries?_retext change call

theorem Environment.membersTo_retext (depth : Nat) (entries : List Entry) :
    (env.retext change).membersTo depth (entries.map (Entry.retext change)) =
      retextMembers change (env.membersTo depth entries) := by
  induction depth generalizing entries with
  | zero => exact env.mergeEntries_retext change (fun _ => rfl) entries []
  | succ depth ih =>
    refine env.mergeEntries_retext change (fun operand => ?_) entries []
    rw [env.objectEntries?_retext]
    cases env.objectEntries? operand with
    | none => rfl
    | some inner => exact ih inner

end Retext

end Script

open Script

section Retext

variable (change : String → String) (env : Environment)

/-! ### Recipes -/

/-- The recipe with the texts of its parts changed. -/
def Recipe.retext : Recipe → Recipe
  | .plain shape => .plain (shape.retext change)
  | .gap reason => .gap reason
  | .null => .null
  | .admitting optional nullable inner => .admitting optional nullable (inner.retext change)
  | .array element => .array (element.retext change)
  | .record key value => .record (key.retext change) (value.retext change)
  | .object members => .object (retextMembers change members)
  | .union members => .union (members.map (Term.retext change))

/-- Changed parts make changed validators. -/
theorem Recipe.validator_retext (recipe : Recipe) {inner inner' : Term → Validator}
    (same : ∀ term : Term, inner' (term.retext change) = (inner term).retext change) (text : String) :
    (recipe.retext change).validator inner' (change text) =
      (recipe.validator inner text).retext change := by
  cases recipe with
  | plain shape => rw [retext, validator, validator, Validator.retext_ofShape]
  | gap reason => rw [retext, validator, validator, Validator.retext_ofGap]
  | null => rw [retext, validator, validator, Validator.retext_admitting, Validator.retext_ofGap]
  | admitting optional nullable part =>
    rw [retext, validator, validator, Validator.retext_admitting, same]
  | array element =>
    rw [retext, validator, validator, Validator.retext_ofShape, Shape.retext, same]
  | record key value =>
    rw [retext, validator, validator, Validator.retext_ofShape, Shape.retext, same, same]
  | object members =>
    rw [retext, validator, validator, Validator.retext_ofShape, Shape.retext]
    refine congrArg (fun fields => Validator.ofShape (.object fields)) ?_
    induction members with
    | nil => rfl
    | cons entry _ ih =>
      rw [retextMembers, List.map_cons, ← retextMembers, List.map_cons, List.map_cons,
        Field.retextAll_declare, same, ih]
  | union members =>
    rw [retext, validator, validator, ← unionOf_retext, List.map_map, List.map_map]
    exact congrArg (unionOf (change text)) (List.map_congr_left fun part _ => same part)

theorem literalShape?_retext (term : Term) :
    literalShape? (term.retext change) = (literalShape? term).map (Shape.retext change) := by
  obtain ⟨form, text⟩ := term
  cases form with
  | minus operand =>
    obtain ⟨form, text⟩ := operand
    cases form <;> rfl
  | _ => rfl

/-- A call with changed texts is the changed recipe. -/
theorem Recipe.ofCall_retext (term : Term) (call : Call) :
    Recipe.ofCall (env.retext change) (term.retext change) (call.retext change) =
      (Recipe.ofCall env term call).retext change := by
  obtain ⟨receiver, name, arguments⟩ := call
  rw [Recipe.ofCall, Recipe.ofCall, Call.retext, env.objectEntries?_retext]
  symm
  dsimp only
  generalize name.getD "" = builder
  split
  · rfl
  · rfl
  · rfl
  · rfl
  · rfl
  · rfl
  · rw [env.firstString?_retext]
    rfl
  · rename_i _ _ literal _
    have shapes : literalShape? ((env.retext change).resolve (literal.retext change)) =
        (literalShape? (env.resolve literal)).map (Shape.retext change) := by
      rw [env.resolve_retext, literalShape?_retext]
    cases found : literalShape? (env.resolve literal) with
    | some shape =>
      rw [found, Option.map_some] at shapes
      simp only [List.map_cons, shapes]
      rfl
    | none =>
      rw [found, Option.map_none] at shapes
      simp only [List.map_cons, shapes]
      rfl
  · rfl
  · rfl
  · rfl
  · rfl
  · cases env.objectEntries? term with
    | none => rfl
    | some entries =>
      rw [Option.map_some]
      dsimp only
      rw [Environment.members, Environment.members, env.membersTo_retext]
      rfl
  · rfl
  -- Builders without the arguments that they need.
  iterate 4
    · rename_i none
      cases arguments with
      | nil => rfl
      | cons => exact (none _ _ rfl).elim
  · rename_i none
    cases arguments with
    | nil => rfl
    | cons _ rest =>
      cases rest with
      | nil => rfl
      | cons => exact (none _ _ _ rfl).elim
  · split
    iterate 19 contradiction
    rfl

theorem Script.Environment.recipe_retext (term : Term) :
    (env.retext change).recipe (term.retext change) = (env.recipe term).retext change := by
  rw [Environment.recipe, Environment.recipe, env.resolve_retext, Term.call?_retext]
  cases (env.resolve term).call? with
  | none => rfl
  | some call => exact Recipe.ofCall_retext change env (env.resolve term) call

/-! ### Validators, fields and indexes -/

/-- **A term with changed texts has the changed validator.** -/
theorem validatorTo_retext (depth : Nat) (term : Term) :
    validatorTo (env.retext change) depth (term.retext change) =
      (validatorTo env depth term).retext change := by
  induction depth generalizing term with
  | zero => rw [validatorTo, validatorTo, Validator.retext_ofGap, Term.text_retext]
  | succ depth ih =>
    rw [validatorTo_succ_eq, validatorTo_succ_eq, env.recipe_retext, env.resolve_retext,
      Term.text_retext]
    exact (env.recipe term).validator_retext change ih _

theorem fieldsOf_retext (depth : Nat) (entries : List Entry) :
    fieldsOf (env.retext change) (validatorTo (env.retext change) depth)
        (entries.map (Entry.retext change)) =
      Field.retextAll change (fieldsOf env (validatorTo env depth) entries) := by
  rw [fieldsOf, fieldsOf, Environment.members, Environment.members, env.membersTo_retext]
  induction env.membersTo maximalSteps entries with
  | nil => rfl
  | cons entry rest ih =>
    rw [retextMembers, List.map_cons, ← retextMembers, List.map_cons, List.map_cons,
      Field.retextAll_declare, validatorTo_retext, ih]

theorem listedStrings_retext (term : Term) :
    listedStrings (env.retext change) (term.retext change) = listedStrings env term := by
  rw [listedStrings, listedStrings, env.resolve_retext, Term.form_retext]
  cases (env.resolve term).form with
  | array items =>
    rw [Form.retext]
    dsimp only
    rw [retextTerms_eq_map, env.strings_retext]
  | _ => rfl

theorem lookup_retextMembers (members : Members) (name : String) :
    (retextMembers change members).lookup name = (members.lookup name).map (Term.retext change) := by
  induction members with
  | nil => rfl
  | cons entry rest ih =>
    rw [retextMembers, List.map_cons, ← retextMembers, List.lookup_cons, List.lookup_cons, ih]
    split <;> rfl

theorem searchedFields_retext (kind : IndexKind) (term : Term) :
    searchedFields (env.retext change) kind (term.retext change) = searchedFields env kind term := by
  rw [searchedFields, searchedFields, env.resolve_retext, Term.form_retext]
  cases (env.resolve term).form with
  | object entries =>
    rw [Form.retext]
    dsimp only
    rw [retextEntries_eq_map, Environment.members, Environment.members, env.membersTo_retext,
      lookup_retextMembers, lookup_retextMembers, Option.bind_map, Option.map_map]
    have strings : (env.retext change).string? ∘ Term.retext change = env.string? :=
      funext (env.string?_retext change)
    have lists : listedStrings (env.retext change) ∘ Term.retext change = listedStrings env :=
      funext (listedStrings_retext change env)
    rw [strings, lists]
  | _ => rfl

theorem index_retext (kind : IndexKind) (arguments : List Term) :
    Index.ofArguments (env.retext change) kind (arguments.map (Term.retext change)) =
      Index.ofArguments env kind arguments := by
  unfold Index.ofArguments
  rw [env.firstString?_retext, List.getElem?_map]
  cases arguments[1]? with
  | none => cases kind <;> rfl
  | some options =>
    cases kind with
    | index => exact congrArg _ (listedStrings_retext change env options)
    | search | vector => exact congrArg _ (searchedFields_retext change env _ options)

/-! ### Tables -/

theorem Script.Call.index?_retext (call : Call) : (call.retext change).index? =
    call.index?.map fun added =>
      (added.1.retext change, added.2.1, added.2.2.map (Term.retext change)) := by
  obtain ⟨receiver, name, arguments⟩ := call
  rw [Call.index?, Call.index?, Call.retext]
  cases receiver with
  | none => rfl
  | some receiver =>
    dsimp only
    cases name.bind IndexKind.ofMember? <;> rfl

theorem Script.Environment.indexed?_retext (term : Term) :
    (env.retext change).indexed? (term.retext change) =
      (env.indexed? term).map (Term.retext change) := by
  rw [Environment.indexed?, Environment.indexed?, Term.call?_retext]
  cases term.call? with
  | none => rfl
  | some call =>
    rw [Option.map_some, Option.bind_some, Option.bind_some, Call.index?_retext]
    cases call.index? with
    | none => rfl
    | some added => exact congrArg some (env.resolve_retext change added.1)

theorem Script.Environment.descend_retext (steps : Nat) (term : Term) :
    (env.retext change).descend steps (term.retext change) =
      (env.descend steps term).map (Term.retext change) := by
  induction steps generalizing term with
  | zero => rfl
  | succ steps ih =>
    rw [Environment.descend, Environment.descend, env.indexed?_retext]
    cases env.indexed? term with
    | none => rfl
    | some next => exact ih next

theorem Table.ofCall_retext (name : String) (indexes : List Index) (call : Call) :
    Table.ofCall (env.retext change) name indexes (call.retext change) =
      (Table.ofCall env name indexes call).map (Table.retext change) := by
  obtain ⟨receiver, called, arguments⟩ := call
  rw [Table.ofCall, Table.ofCall, Call.retext]
  dsimp only
  split
  · rfl
  · cases arguments with
    | nil => rfl
    | cons argument rest =>
      rw [List.map_cons, List.head?_cons, List.head?_cons, Option.bind_some, Option.bind_some,
        env.objectEntries?_retext]
      cases env.objectEntries? argument with
      | none => rfl
      | some entries =>
        exact congrArg (fun fields => Except.ok (Table.mk name fields indexes))
          (fieldsOf_retext change env maximalSteps entries)

/-- Where the descent below index calls ends, the table is the changed one. -/
theorem Script.Environment.table?_retext_of_descend (name : String) {steps : Nat} (indexes : List Index)
    {term : Term} (ended : env.descend steps term = none) :
    (env.retext change).table? name indexes (term.retext change) =
      (env.table? name indexes term).map (Except.map (Table.retext change)) := by
  induction steps generalizing indexes term with
  | zero => cases ended
  | succ steps ih =>
    rw [Environment.table?, Environment.table?, Term.call?_retext]
    cases called : term.call? with
    | none => rfl
    | some call =>
      rw [Option.map_some]
      dsimp only
      rw [Call.index?_retext]
      cases isIndex : call.index? with
      | none => exact congrArg some (Table.ofCall_retext change env name indexes call)
      | some added =>
        obtain ⟨table, kind, arguments⟩ := added
        have below : env.indexed? term = some (env.resolve table) := by
          rw [Environment.indexed?, called, Option.bind_some, isIndex]
          rfl
        rw [Environment.descend, below, Option.bind_some] at ended
        rw [Option.map_some]
        dsimp only
        rw [env.resolve_retext, index_retext]
        exact ih _ ended

/-- **A term with changed texts defines the changed table.** -/
theorem Script.Environment.table?_retext (name : String) (indexes : List Index) (term : Term) :
    (env.retext change).table? name indexes (term.retext change) =
      (env.table? name indexes term).map (Except.map (Table.retext change)) := by
  by_cases ended : ∃ steps, env.descend steps term = none
  · obtain ⟨steps, ended⟩ := ended
    exact env.table?_retext_of_descend change name indexes ended
  · -- Neither descent ends, so neither table has a value.
    have endless : env.IsEndless term := fun steps =>
      Option.isSome_iff_ne_none.mpr fun none => ended ⟨steps, none⟩
    have endless' : (env.retext change).IsEndless (term.retext change) := fun steps => by
      rw [env.descend_retext, Option.isSome_map]
      exact endless steps
    rw [(env.table?_eq_none_iff name indexes term).mpr ((env.isEndless_iff_returns term).mp endless),
      ((env.retext change).table?_eq_none_iff name indexes (term.retext change)).mpr
        (((env.retext change).isEndless_iff_returns (term.retext change)).mp endless')]
    rfl

/-! ### Schemas -/

theorem tablesOfEntries_retext (entries : Members) :
    tablesOfEntries (env.retext change) (retextMembers change entries) =
      (tablesOfEntries env entries).map (Except.map (List.map (Table.retext change))) := by
  induction entries with
  | nil => rfl
  | cons entry rest ih =>
    obtain ⟨name, value⟩ := entry
    rw [retextMembers, List.map_cons, ← retextMembers, tablesOfEntries, tablesOfEntries, ih,
      env.resolve_retext, env.table?_retext]
    generalize env.table? name [] (env.resolve value) = first, tablesOfEntries env rest = others
    rcases first with _ | fault | table <;> rcases others with _ | fault | tables <;> rfl

theorem tablesOf_retext (arguments : List Term) :
    tablesOf (env.retext change) (arguments.map (Term.retext change)) =
      (tablesOf env arguments).map (Except.map (List.map (Table.retext change))) := by
  cases arguments with
  | nil => rfl
  | cons argument rest =>
    rw [List.map_cons, tablesOf, tablesOf, env.resolve_retext, Term.form_retext]
    cases (env.resolve argument).form with
    | object entries =>
      rw [Form.retext]
      dsimp only
      rw [retextEntries_eq_map, Environment.members, Environment.members, env.membersTo_retext]
      exact tablesOfEntries_retext change env _
    | _ => rfl

theorem schemaArguments?_retext (term : Term) :
    schemaArguments? (env.retext change) (term.retext change) =
      (schemaArguments? env term).map (List.map (Term.retext change)) := by
  rw [schemaArguments?_eq, schemaArguments?_eq, env.resolve_retext, Term.call?_retext]
  cases (env.resolve term).call? with
  | none => rfl
  | some call =>
    rw [Option.map_some, Option.bind_some, Option.bind_some, Call.retext]
    split <;> rfl

theorem Script.Environment.schemaDefinition?_retext :
    (env.retext change).schemaDefinition? =
      env.schemaDefinition?.map (List.map (Term.retext change)) := by
  rw [Environment.schemaDefinition?, Environment.schemaDefinition?]
  have searched : (env.retext change).defaults ++ (env.retext change).bindings.map Prod.snd =
      (env.defaults ++ env.bindings.map Prod.snd).map (Term.retext change) := by
    rw [Environment.retext, retextMembers, List.map_append, List.map_map, List.map_map]
    rfl
  rw [searched]
  induction env.defaults ++ env.bindings.map Prod.snd with
  | nil => rfl
  | cons term rest ih =>
    rw [List.map_cons, List.findSome?_cons, List.findSome?_cons, schemaArguments?_retext, ih]
    cases schemaArguments? env term <;> rfl

theorem schemaTables_retext :
    schemaTables (env.retext change) =
      (schemaTables env).map (Except.map (List.map (Table.retext change))) := by
  rw [schemaTables, schemaTables, env.schemaDefinition?_retext]
  cases env.schemaDefinition? with
  | none => rfl
  | some arguments =>
    rw [Option.map_some]
    dsimp only
    rw [tablesOf_retext]
    rcases tablesOf env arguments with _ | fault | tables <;> rfl

end Retext

/-- **The texts of terms show in the texts of unknown values, and nowhere else in a schema.** -/
theorem Schema.ofItems?_retext {change : String → String} {items items' : List ModuleItem}
    (same : (Environment.ofItems items).retext change = Environment.ofItems items') (path : String) :
    Schema.ofItems? path items' =
      (Schema.ofItems? path items).map (Except.map (Schema.retext change)) := by
  rw [Schema.ofItems?, Schema.ofItems?, ← same, schemaTables_retext]
  rcases schemaTables (.ofItems items) with _ | failure | tables <;> rfl

/-! ### Two texts of one module -/

/-- The texts of the unknown values in the schema that is read; none where there is no schema. -/
def Schema.textsRead : Option (Except Failure Schema) → List String
  | some (.ok schema) => schema.unknownTexts
  | _ => []

theorem Schema.textsRead_retext (change : String → String) (read : Option (Except Failure Schema)) :
    Schema.textsRead (read.map (Except.map (Schema.retext change))) =
      (Schema.textsRead read).map change := by
  rcases read with _ | failure | schema
  · rfl
  · rfl
  · exact schema.unknownTexts_retext

/-- The texts do not depend on the path under which the schema is read. -/
theorem Schema.textsRead_ofItems? (path path' : String) (items : List ModuleItem) :
    Schema.textsRead (Schema.ofItems? path items) = Schema.textsRead (Schema.ofItems? path' items) := by
  rw [Schema.ofItems?, Schema.ofItems?]
  rcases schemaTables (.ofItems items) with _ | failure | tables <;> rfl

theorem Schema.retext_read_eq_iff {change change' : String → String}
    (read : Option (Except Failure Schema)) :
    read.map (Except.map (Schema.retext change)) = read.map (Except.map (Schema.retext change')) ↔
      ∀ text ∈ Schema.textsRead read, change text = change' text := by
  rcases read with _ | failure | schema
  · simp [Schema.textsRead]
  · simp [Schema.textsRead, Except.map]
  · simp [Schema.textsRead, Except.map, schema.retext_eq_iff]

theorem Schema.outlined_retext (change : String → String) (read : Option (Except Failure Schema)) :
    Schema.outlined (read.map (Except.map (Schema.retext change))) = Schema.outlined read := by
  rcases read with _ | failure | schema
  · rfl
  · rfl
  · exact congrArg (fun schema => some (Except.ok schema)) (schema.textless_retext id)

section Texts

variable {first second : List Char} {trees : List StatementTree}

/-- The module over a text is the module with spans for texts, with the excerpts at these spans. -/
theorem Script.Environment.retext_coded (keys : Agree first second (trees.flatMap StatementTree.keys)) :
    (Environment.ofItems (trees.map (StatementTree.coded first))).retext (textAtCode second) =
      Environment.ofItems (trees.map (StatementTree.lower second)) := by
  rw [Environment.retext, Environment.mk.injEq]
  induction trees with
  | nil => exact ⟨rfl, rfl⟩
  | cons tree rest ih =>
    rw [List.flatMap_cons, agree_append] at keys
    obtain ⟨bindings, defaults⟩ := ih keys.2
    have own := keys.1
    cases tree with
    | declaration item => exact ⟨bindings, defaults⟩
    | binding name initial =>
      have same : (initial.coded first).retext (textAtCode second) = initial.lower second :=
        TermTree.retext_coded own
      exact ⟨congrArg₂ (fun term others => (name, term) :: others) same bindings, defaults⟩
    | defaultExport value =>
      have same : (value.coded first).retext (textAtCode second) = value.lower second :=
        TermTree.retext_coded own
      exact ⟨bindings, congrArg₂ List.cons same defaults⟩

/-- The schema over a text. -/
def loweredSchema? (path : String) (chars : List Char) (trees : List StatementTree) :
    Option (Except Failure Schema) :=
  Schema.ofItems? path (trees.map (StatementTree.lower chars))

/-- **A schema keeps the excerpts at certain spans.** Two texts of the same syntax trees and keys define
the same schema, but for the texts of unknown values, and these texts are the excerpts at the same spans.
So the schemas are the same exactly if these excerpts are. -/
theorem Schema.exists_keptSpans (keys : Agree first second (trees.flatMap StatementTree.keys)) :
    ∃ spans : List Span, ∀ path,
      Schema.outlined (loweredSchema? path first trees) =
        Schema.outlined (loweredSchema? path second trees) ∧
      Schema.textsRead (loweredSchema? path first trees) = spans.map (Span.text first) ∧
      Schema.textsRead (loweredSchema? path second trees) = spans.map (Span.text second) ∧
      (loweredSchema? path first trees = loweredSchema? path second trees ↔
        Agree first second (spans.map Excerpt.text)) := by
  let coded := trees.map (StatementTree.coded first)
  let codes := Schema.textsRead (Schema.ofItems? "" coded)
  refine ⟨codes.map Span.ofCode, fun path => ?_⟩
  have lowered : ∀ {chars : List Char}, Agree first chars (trees.flatMap StatementTree.keys) →
      loweredSchema? path chars trees =
        (Schema.ofItems? path coded).map (Except.map (Schema.retext (textAtCode chars))) :=
    fun keys => Schema.ofItems?_retext (Environment.retext_coded keys) path
  have texts : ∀ chars : List Char,
      Schema.textsRead ((Schema.ofItems? path coded).map
        (Except.map (Schema.retext (textAtCode chars)))) =
          (codes.map Span.ofCode).map (Span.text chars) := fun chars => by
    rw [Schema.textsRead_retext, Schema.textsRead_ofItems? path "", List.map_map]
    rfl
  rw [lowered keys, lowered fun _ _ => rfl]
  refine ⟨?_, texts first, texts second, ?_⟩
  · rw [Schema.outlined_retext, Schema.outlined_retext]
  · rw [Schema.retext_read_eq_iff, Schema.textsRead_ofItems? path ""]
    simp only [Agree, List.forall_mem_map]
    rfl

end Texts

end SwiftBindings
