/-
**Expressions that are wrapped or named.**

An expression can be put in parentheses, be given an assertion about its type, or be made the value of
a new name and be replaced by that name; `Environment.Rewrites` says that one module is another with
expressions treated so, in any places but those of what is called. What is read from a term goes through
`Environment.resolve` first, and so comes to forms that are related part by part
(`Environment.Rewrites.resolve`). Hence strings, entries, members of objects, calls and recipes are the
same up to parts that are treated so again.
-/

import SwiftBindings.Proofs.Related
import SwiftBindings.Proofs.Schema.Recipes

namespace SwiftBindings.Script

/-! ### The relation -/

/-- What a term stands for is reached within as many names and wrappers as are followed. -/
def Environment.Ends (env : Environment) (term : Term) : Prop :=
  env.step? (env.resolve term) = none

mutual

/-- The second term is the first with expressions wrapped or replaced by fresh names, which stand for
them in the module of the second. All chains of names and wrappers in it are followed to their ends. -/
inductive Term.Rewritten (env : Environment) (fresh : List String) : Term → Term → Prop
  /-- The term itself is neither wrapped nor named. -/
  | kept {form form' : Form} {text text' : String} (forms : Form.Rewritten env fresh form form')
    (ends : env.Ends ⟨form', text'⟩) : Term.Rewritten env fresh ⟨form, text⟩ ⟨form', text'⟩
  /-- The term is wrapped. -/
  | wrapped {term inner : Term} {text : String} (inside : Term.Rewritten env fresh term inner)
    (ends : env.Ends ⟨.wrapped inner, text⟩) : Term.Rewritten env fresh term ⟨.wrapped inner, text⟩
  /-- The term is replaced by a name. -/
  | named {term value : Term} {name text : String} (isFresh : name ∈ fresh)
    (bound : env.value? name = some value) (inside : Term.Rewritten env fresh term value)
    (ends : env.Ends ⟨.name name, text⟩) : Term.Rewritten env fresh term ⟨.name name, text⟩

/-- The forms are the same up to the terms inside them. -/
inductive Form.Rewritten (env : Environment) (fresh : List String) : Form → Form → Prop
  /-- A name that is not fresh. -/
  | name {name : String} (known : name ∉ fresh) : Form.Rewritten env fresh (.name name) (.name name)
  /-- A string literal. -/
  | string (value : String) : Form.Rewritten env fresh (.string value) (.string value)
  /-- A number literal. -/
  | number : Form.Rewritten env fresh .number .number
  /-- A truth value. -/
  | boolean (value : Bool) : Form.Rewritten env fresh (.boolean value) (.boolean value)
  /-- The operand of a minus sign stays in its place. -/
  | minus {form form' : Form} {text text' : String} (operand : Form.Rewritten env fresh form form') :
    Form.Rewritten env fresh (.minus ⟨form, text⟩) (.minus ⟨form', text'⟩)
  /-- A wrapper. -/
  | wrapped {inner inner' : Term} (inside : Term.Rewritten env fresh inner inner') :
    Form.Rewritten env fresh (.wrapped inner) (.wrapped inner')
  /-- A member of an object. -/
  | member {object object' : Term} (property : String) (inside : Term.Rewritten env fresh object object') :
    Form.Rewritten env fresh (.member object property) (.member object' property)
  /-- What is called stays in its place. -/
  | call {form form' : Form} {text text' : String} {arguments arguments' : List Term}
    (callee : Form.Rewritten env fresh form form')
    (inside : List.Forall₂ (Term.Rewritten env fresh) arguments arguments') :
    Form.Rewritten env fresh (.call ⟨form, text⟩ arguments) (.call ⟨form', text'⟩ arguments')
  /-- An object literal. -/
  | object {entries entries' : List Entry}
    (inside : List.Forall₂ (Entry.Rewritten env fresh) entries entries') :
    Form.Rewritten env fresh (.object entries) (.object entries')
  /-- A list literal. -/
  | array {items items' : List Term} (inside : List.Forall₂ (Term.Rewritten env fresh) items items') :
    Form.Rewritten env fresh (.array items) (.array items')
  /-- Another expression. -/
  | other : Form.Rewritten env fresh .other .other

/-- The entries are the same up to the terms inside them. -/
inductive Entry.Rewritten (env : Environment) (fresh : List String) : Entry → Entry → Prop
  /-- A property under a known key. -/
  | property (key : String) {value value' : Term} (inside : Term.Rewritten env fresh value value') :
    Entry.Rewritten env fresh (.property key value) (.property key value')
  /-- A property whose key is computed. -/
  | computed {key key' value value' : Term} (keys : Term.Rewritten env fresh key key')
    (inside : Term.Rewritten env fresh value value') :
    Entry.Rewritten env fresh (.computed key value) (.computed key' value')
  /-- A spread. -/
  | spread {operand operand' : Term} (inside : Term.Rewritten env fresh operand operand') :
    Entry.Rewritten env fresh (.spread operand) (.spread operand')
  /-- An entry without a key. -/
  | other : Entry.Rewritten env fresh .other .other

end

/-- The same key with related terms. -/
abbrev Term.RewrittenUnder (env : Environment) (fresh : List String) (entry entry' : String × Term) :
    Prop :=
  entry.1 = entry'.1 ∧ Term.Rewritten env fresh entry.2 entry'.2

/-- The variables of a module that have no fresh name, with their values. -/
def Environment.without (env : Environment) (fresh : List String) : List (String × Term) :=
  env.bindings.filter fun binding => binding.1 ∉ fresh

/-- The second module is the first with expressions wrapped or replaced by fresh names, and with these
names bound anywhere at the top level. -/
structure Environment.Rewrites (env env' : Environment) (fresh : List String) : Prop where
  /-- The variables with names that are not fresh are those of the first module. -/
  bindings : List.Forall₂ (Term.RewrittenUnder env' fresh) env.bindings (env'.without fresh)
  /-- The default exports are those of the first module. -/
  defaults : List.Forall₂ (Term.Rewritten env' fresh) env.defaults env'.defaults

/-! ### Following names and wrappers -/

section Rewrites

variable {env env' : Environment} {fresh : List String}

theorem Term.Rewritten.ends {term term' : Term} (same : Term.Rewritten env' fresh term term') :
    env'.Ends term' := by
  cases same with
  | kept _ ends | wrapped _ ends | named _ _ _ ends => exact ends

/-- A name that is not fresh has the same value. -/
theorem Environment.Rewrites.value? (rewrites : env.Rewrites env' fresh) {name : String}
    (known : name ∉ fresh) :
    Option.Rel (Term.Rewritten env' fresh) (env.value? name) (env'.value? name) := by
  have own : (env'.without fresh).findRev? (fun entry => entry.1 == name) =
      env'.bindings.findRev? fun entry => entry.1 == name := by
    rw [Environment.without, List.findRev?_eq_find?_reverse, List.findRev?_eq_find?_reverse,
      ← List.filter_reverse, List.find?_filter]
    refine congrArg (List.find? · _) (funext fun entry => ?_)
    by_cases here : entry.1 = name
    · simp [here, known]
    · simp [here]
  have found : Option.Rel _ (env.bindings.reverse.find? fun entry => entry.1 == name) _ :=
    find?_related (List.rel_reverse rewrites.bindings) fun related => by rw [related.1]
  rw [Environment.value?, Environment.value?, ← own, List.findRev?_eq_find?_reverse,
    List.findRev?_eq_find?_reverse]
  exact rel_map found And.right

/-- Terms of related forms lead to related terms at one remove, or to none. -/
theorem Environment.Rewrites.step? (rewrites : env.Rewrites env' fresh) {form form' : Form}
    (forms : Form.Rewritten env' fresh form form') (text text' : String) :
    Option.Rel (Term.Rewritten env' fresh) (env.step? ⟨form, text⟩) (env'.step? ⟨form', text'⟩) := by
  cases forms with
  | name known => exact rewrites.value? known
  | wrapped inside => exact .some inside
  | _ => exact .none

/-- Where the second term leads no further, neither does the first, and their forms are related. -/
theorem Environment.Rewrites.ended (rewrites : env.Rewrites env' fresh) {term term' : Term}
    (same : Term.Rewritten env' fresh term term') (ended : env'.step? term' = none) :
    Form.Rewritten env' fresh term.form term'.form ∧ env.step? term = none := by
  cases same with
  | @kept form _ text _ forms _ =>
    have stepped := rewrites.step? forms text ‹String›
    rw [ended] at stepped
    generalize env.step? ⟨form, text⟩ = next at stepped ⊢
    cases stepped
    exact ⟨forms, rfl⟩
  | wrapped => cases ended
  | named _ bound => cases bound.symm.trans ended

theorem Environment.follow_of_ended {env : Environment} {term : Term} (ended : env.step? term = none)
    (steps : Nat) : env.follow steps term = term := by
  cases steps with
  | zero => rfl
  | succ steps => rw [Environment.follow, ended]

/-- Where the second term is followed to an end, the first is followed to an end of a related form in no
more steps, and stays there. -/
theorem Environment.Rewrites.follow (rewrites : env.Rewrites env' fresh) {steps : Nat}
    {term term' : Term} (same : Term.Rewritten env' fresh term term')
    (ended : env'.step? (env'.follow steps term') = none) {more : Nat} (within : steps ≤ more) :
    Form.Rewritten env' fresh (env.follow more term).form (env'.follow steps term').form := by
  induction steps generalizing term term' more with
  | zero =>
    obtain ⟨forms, stays⟩ := rewrites.ended same ended
    rwa [Environment.follow_of_ended stays]
  | succ steps ih =>
    cases stepped : env'.step? term' with
    | none =>
      obtain ⟨forms, stays⟩ := rewrites.ended same stepped
      rwa [Environment.follow_of_ended stays, Environment.follow_of_ended stepped]
    | some next =>
      have onward : env'.follow (steps + 1) term' = env'.follow steps next := by
        rw [Environment.follow, stepped]
      rw [onward] at ended ⊢
      have less : steps ≤ more := (Nat.le_succ steps).trans within
      cases same with
      | @kept form _ text _ forms _ =>
        -- Both terms go on; only here does the first take a step.
        have both := rewrites.step? forms text ‹String›
        rw [stepped] at both
        obtain ⟨more, rfl⟩ := Nat.exists_eq_add_one_of_ne_zero (Nat.ne_of_gt (Nat.lt_of_lt_of_le
          (Nat.succ_pos steps) within))
        rw [Environment.follow]
        generalize env.step? ⟨form, text⟩ = first at both ⊢
        cases both with
        | some related => exact ih related ended (Nat.le_of_succ_le_succ within)
      | wrapped inside _ =>
        cases stepped
        exact ih inside ended less
      | named _ bound inside _ =>
        cases bound.symm.trans stepped
        exact ih inside ended less

/-- **What related terms stand for has related forms.** -/
theorem Environment.Rewrites.resolve (rewrites : env.Rewrites env' fresh) {term term' : Term}
    (same : Term.Rewritten env' fresh term term') :
    Form.Rewritten env' fresh (env.resolve term).form (env'.resolve term').form :=
  rewrites.follow same same.ends Nat.le.refl

theorem Environment.Rewrites.string?_eq (rewrites : env.Rewrites env' fresh) {term term' : Term}
    (same : Term.Rewritten env' fresh term term') : env.string? term = env'.string? term' := by
  have forms := rewrites.resolve same
  rw [Environment.string?, Environment.string?]
  generalize (env.resolve term).form = form, (env'.resolve term').form = form' at forms
  cases forms <;> rfl

theorem Environment.Rewrites.firstString?_eq (rewrites : env.Rewrites env' fresh) {items items' : List Term}
    (same : List.Forall₂ (Term.Rewritten env' fresh) items items') :
    items.head?.bind env.string? = items'.head?.bind env'.string? :=
  bind_related (head?_related same) rewrites.string?_eq

theorem Environment.Rewrites.strings_eq (rewrites : env.Rewrites env' fresh) {items items' : List Term}
    (same : List.Forall₂ (Term.Rewritten env' fresh) items items') :
    env.strings items = env'.strings items' := by
  rw [Environment.strings, Environment.strings]
  induction same with
  | nil => rfl
  | cons item _ ih => rw [List.filterMap_cons, List.filterMap_cons, rewrites.string?_eq item, ih]

/-! ### Calls -/

/-- The calls are the same up to the terms inside them. -/
structure Call.Rewritten (env : Environment) (fresh : List String) (call call' : Call) : Prop where
  /-- The receivers are related, or there is none. -/
  receiver : Option.Rel (Term.Rewritten env fresh) call.receiver call'.receiver
  /-- Calls of one name. -/
  name : call.name = call'.name
  /-- Related arguments. -/
  arguments : List.Forall₂ (Term.Rewritten env fresh) call.arguments call'.arguments

theorem Form.Rewritten.call? {term term' : Term}
    (forms : Form.Rewritten env' fresh term.form term'.form) :
    Option.Rel (Call.Rewritten env' fresh) term.call? term'.call? := by
  obtain ⟨form, text⟩ := term
  obtain ⟨form', text'⟩ := term'
  cases forms with
  | call callee inside =>
    cases callee with
    | member property object => exact .some ⟨.some object, rfl, inside⟩
    | _ => exact .some ⟨.none, rfl, inside⟩
  | _ => exact .none

/-! ### Members of objects -/

theorem Keyed.put_related {α : Type} {R : α → α → Prop} {entries entries' : Keyed String α}
    (same : List.Forall₂ (fun entry entry' => entry.1 = entry'.1 ∧ R entry.2 entry'.2) entries entries')
    (key : String) {value value' : α} (values : R value value') :
    List.Forall₂ (fun entry entry' => entry.1 = entry'.1 ∧ R entry.2 entry'.2)
      (Keyed.put key value entries) (Keyed.put key value' entries') := by
  induction same with
  | nil => exact .cons ⟨rfl, values⟩ .nil
  | cons entry rest ih =>
    rw [Keyed.put, Keyed.put, entry.1]
    split
    · exact .cons ⟨rfl, values⟩ rest
    · exact .cons entry ih

theorem Environment.Rewrites.mergeEntry (rewrites : env.Rewrites env' fresh)
    {spread spread' : Term → Members}
    (spreads : ∀ {operand operand'}, Term.Rewritten env' fresh operand operand' →
      List.Forall₂ (Term.RewrittenUnder env' fresh) (spread operand) (spread' operand'))
    {members members' : Members} (same : List.Forall₂ (Term.RewrittenUnder env' fresh) members members')
    {entry entry' : Entry} (entries : Entry.Rewritten env' fresh entry entry') :
    List.Forall₂ (Term.RewrittenUnder env' fresh)
      (env.mergeEntry spread members entry) (env'.mergeEntry spread' members' entry') := by
  cases entries with
  | property key inside => exact Keyed.put_related same key inside
  | computed keys inside =>
    rw [Environment.mergeEntry, Environment.mergeEntry, rewrites.string?_eq keys]
    split
    · exact Keyed.put_related same _ inside
    · exact same
  | spread inside =>
    exact List.rel_foldl (fun _ _ same _ _ entry => by
      rw [entry.1]
      exact Keyed.put_related same _ entry.2) same (spreads inside)
  | other => exact same

theorem Environment.Rewrites.mergeEntries (rewrites : env.Rewrites env' fresh)
    {spread spread' : Term → Members}
    (spreads : ∀ {operand operand'}, Term.Rewritten env' fresh operand operand' →
      List.Forall₂ (Term.RewrittenUnder env' fresh) (spread operand) (spread' operand'))
    {entries entries' : List Entry} (same : List.Forall₂ (Entry.Rewritten env' fresh) entries entries')
    {members members' : Members} (before : List.Forall₂ (Term.RewrittenUnder env' fresh) members members') :
    List.Forall₂ (Term.RewrittenUnder env' fresh) (entries.foldl (env.mergeEntry spread) members)
      (entries'.foldl (env'.mergeEntry spread') members') := by
  induction same generalizing members members' with
  | nil => exact before
  | cons entry _ ih => exact ih (rewrites.mergeEntry spreads before entry)

/-- The entries of an object literal. -/
def Form.entries? : Form → Option (List Entry)
  | .object entries => some entries
  | _ => none

/-- The entries of the object literal in a call of `object`. -/
def Environment.calledEntries? (env : Environment) (call : Call) : Option (List Entry) :=
  if call.name = some "object" then
    call.arguments.head?.bind fun argument => (env.resolve argument).form.entries?
  else none

theorem Environment.objectEntries?_eq (env : Environment) (term : Term) : env.objectEntries? term =
    (env.resolve term).form.entries?.or ((env.resolve term).call?.bind env.calledEntries?) := by
  rw [Environment.objectEntries?]
  generalize env.resolve term = resolved
  cases read : resolved.form.entries? with
  | some entries =>
    unfold Form.entries? at read
    split at read
    · cases read
      simp only [*, Option.some_or]
    · cases read
  | none =>
    have noObject : ∀ entries, resolved.form ≠ .object entries := by
      rintro entries same
      rw [same, Form.entries?] at read
      cases read
    rw [Option.none_or]
    split
    · exact absurd ‹_› (noObject _)
    · rename_i argument others called _
      rw [called, Option.bind_some, Environment.calledEntries?, if_pos rfl]
      rfl
    · rename_i other
      cases called : resolved.call? with
      | none => rfl
      | some call =>
        obtain ⟨receiver, name, arguments⟩ := call
        rw [Option.bind_some, Environment.calledEntries?]
        split
        · rename_i object
          cases object
          cases arguments with
          | nil => rfl
          | cons argument others => exact (other _ _ _ called).elim
        · rfl

theorem Form.Rewritten.entries? {form form' : Form} (forms : Form.Rewritten env' fresh form form') :
    Option.Rel (List.Forall₂ (Entry.Rewritten env' fresh)) form.entries? form'.entries? := by
  cases forms with
  | object inside => exact .some inside
  | _ => exact .none

theorem Environment.Rewrites.calledEntries? (rewrites : env.Rewrites env' fresh) {call call' : Call}
    (same : Call.Rewritten env' fresh call call') :
    Option.Rel (List.Forall₂ (Entry.Rewritten env' fresh))
      (env.calledEntries? call) (env'.calledEntries? call') := by
  rw [Environment.calledEntries?, Environment.calledEntries?, same.name]
  split
  · exact rel_bind (head?_related same.arguments) fun argument => (rewrites.resolve argument).entries?
  · exact .none

/-- Related terms stand for objects with related entries, or for none. -/
theorem Environment.Rewrites.objectEntries? (rewrites : env.Rewrites env' fresh) {term term' : Term}
    (same : Term.Rewritten env' fresh term term') :
    Option.Rel (List.Forall₂ (Entry.Rewritten env' fresh))
      (env.objectEntries? term) (env'.objectEntries? term') := by
  have forms := rewrites.resolve same
  rw [Environment.objectEntries?_eq, Environment.objectEntries?_eq]
  exact rel_or forms.entries? (rel_bind forms.call? rewrites.calledEntries?)

/-- Related entries make members of the same keys, with related values. -/
theorem Environment.Rewrites.membersTo (rewrites : env.Rewrites env' fresh) (depth : Nat)
    {entries entries' : List Entry} (same : List.Forall₂ (Entry.Rewritten env' fresh) entries entries') :
    List.Forall₂ (Term.RewrittenUnder env' fresh)
      (env.membersTo depth entries) (env'.membersTo depth entries') := by
  induction depth generalizing entries entries' with
  | zero =>
    rw [Environment.membersTo, Environment.membersTo]
    exact rewrites.mergeEntries (fun _ => .nil) same .nil
  | succ depth ih =>
    rw [Environment.membersTo, Environment.membersTo]
    refine rewrites.mergeEntries (fun {operand operand'} related => ?_) same .nil
    have inner := rewrites.objectEntries? related
    generalize env.objectEntries? operand = found, env'.objectEntries? operand' = found' at inner ⊢
    cases inner with
    | none => exact .nil
    | some inner => exact ih inner

/-! ### Recipes -/

theorem Form.Rewritten.literalShape? {term term' : Term}
    (forms : Form.Rewritten env' fresh term.form term'.form) :
    literalShape? term = literalShape? term' := by
  obtain ⟨form, text⟩ := term
  obtain ⟨form', text'⟩ := term'
  cases forms with
  | minus operand => cases operand <;> rfl
  | _ => rfl

/-- What related terms stand for is related. -/
theorem Environment.Rewrites.resolved (rewrites : env.Rewrites env' fresh) {term term' : Term}
    (same : Term.Rewritten env' fresh term term') :
    Term.Rewritten env' fresh (env.resolve term) (env'.resolve term') := by
  have forms := rewrites.resolve same
  have ends : env'.Ends (env'.resolve term') := by
    rw [Environment.Ends, Environment.resolve, Environment.follow_of_ended same.ends]
    exact same.ends
  generalize env.resolve term = resolved, env'.resolve term' = resolved' at forms ends ⊢
  obtain ⟨form, text⟩ := resolved
  obtain ⟨form', text'⟩ := resolved'
  exact .kept forms ends

theorem Environment.Rewrites.ofCall (rewrites : env.Rewrites env' fresh) {term term' : Term}
    (terms : Term.Rewritten env' fresh term term') {call call' : Call}
    (same : Call.Rewritten env' fresh call call') :
    Recipe.Alike (Term.Rewritten env' fresh) (.ofCall env term call) (.ofCall env' term' call') := by
  obtain ⟨_, name, arguments⟩ := call
  obtain ⟨_, name', arguments'⟩ := call'
  obtain ⟨_, rfl, inside⟩ := same
  have entries := rewrites.objectEntries? terms
  rw [Recipe.ofCall, Recipe.ofCall]
  dsimp only at inside ⊢
  generalize name.getD "" = builder
  split
  · exact .plain .string
  · exact .plain .number
  · exact .plain .number
  · exact .plain .boolean
  · exact .plain .any
  · exact .null
  · rw [rewrites.firstString?_eq inside]
    exact .plain _
  · cases inside with
    | @cons literal literal' _ _ related _ =>
      have shapes := (rewrites.resolve related).literalShape?
      cases found : literalShape? (env'.resolve literal') with
      | some shape =>
        simp only [shapes, found]
        exact .plain shape
      | none =>
        simp only [shapes, found]
        exact .gap _
  · cases inside with | cons argument _ => exact .admitting true false argument
  · cases inside with | cons argument _ => exact .admitting false true argument
  · cases inside with | cons element _ => exact .array element
  · cases inside with | cons key rest => cases rest with | cons value _ => exact .record key value
  · generalize env.objectEntries? term = found, env'.objectEntries? term' = found' at entries ⊢
    cases entries with
    | none => exact .gap _
    | some same => exact .object (rewrites.membersTo _ same)
  · exact .union inside
  -- Builders without the arguments that they need.
  iterate 4
    · rename_i none
      cases inside with
      | nil => exact .gap _
      | cons => exact (none _ _ rfl).elim
  · rename_i none
    cases inside with
    | nil => exact .gap _
    | cons _ rest =>
      cases rest with
      | nil => exact .gap _
      | cons => exact (none _ _ _ rfl).elim
  · split
    iterate 19 contradiction
    exact .gap _

/-- Related terms have recipes of one kind, with related parts. -/
theorem Environment.Rewrites.recipe (rewrites : env.Rewrites env' fresh) {term term' : Term}
    (same : Term.Rewritten env' fresh term term') :
    Recipe.Alike (Term.Rewritten env' fresh) (env.recipe term) (env'.recipe term') := by
  have terms := rewrites.resolved same
  have calls := (rewrites.resolve same).call?
  rw [Environment.recipe, Environment.recipe]
  generalize (env.resolve term).call? = call, (env'.resolve term').call? = call' at calls ⊢
  cases calls with
  | none => exact .gap _
  | some call => exact rewrites.ofCall terms call

/-- **Related terms have the same validators up to texts,** read to any depth. -/
theorem Environment.Rewrites.textless_validatorTo (rewrites : env.Rewrites env' fresh) (depth : Nat)
    {term term' : Term} (same : Term.Rewritten env' fresh term term') :
    (validatorTo env depth term).textless id = (validatorTo env' depth term').textless id := by
  induction depth generalizing term term' with
  | zero =>
    rw [validatorTo, validatorTo, Validator.textless_ofGap, Validator.textless_ofGap]
  | succ depth ih =>
    rw [validatorTo_succ_eq, validatorTo_succ_eq]
    exact (rewrites.recipe same).textless_validator isArrangement_id ih _ _

end Rewrites

end SwiftBindings.Script
