/-
**Unions in any order and grouping.**

The members of a union can be permuted, and members in a row can be made a union of their own, anywhere
in a validator and in any number of steps (`Environment.Regroups`). As long as builders are not nested
deeper than they are read (`Environment.ReadsWithin`), what is read differs in nothing but texts and the
order of the values of enumerations (`Environment.Regroups.textless_declare`).

A regrouped term may need more levels than the term it was made of. So the induction on the steps is
about terms that are read to the end at some depth (`Environment.IsReadable`), which every step keeps; two
depths that both reach the end read the same (`Environment.ReadsWithin.unique`).
-/

import SwiftBindings.Proofs.Related
import SwiftBindings.Proofs.Schema.Recipes

namespace SwiftBindings

open Script

/-! ### Parts of recipes -/

/-- The terms of which a recipe needs validators. -/
def Recipe.parts : Recipe → List Term
  | .plain _ | .gap _ | .null => []
  | .admitting _ _ inner => [inner]
  | .array element => [element]
  | .record key value => [key, value]
  | .object members => members.map Prod.snd
  | .union members => members

/-- A recipe looks at nothing but the validators of its parts. -/
theorem Recipe.validator_congr {recipe : Recipe} {inner inner' : Term → Validator}
    (same : ∀ part ∈ recipe.parts, inner part = inner' part) (text : String) :
    recipe.validator inner text = recipe.validator inner' text := by
  cases recipe with
  | plain | gap | null => rfl
  | admitting | array =>
    rw [validator, validator, same _ List.mem_cons_self]
  | record key value =>
    rw [validator, validator, same key List.mem_cons_self,
      same value (List.mem_cons_of_mem _ List.mem_cons_self)]
  | object members =>
    rw [validator, validator]
    refine congrArg (fun fields => Validator.ofShape (.object fields)) ?_
    exact List.map_congr_left fun entry member => by rw [same _ (List.mem_map_of_mem member)]
  | union members =>
    rw [validator, validator]
    exact congrArg (unionOf text) (List.map_congr_left same)

section Alike

variable {related : Term → Term → Prop} {recipe recipe' : Recipe}

/-- Of recipes made in one way, the parts are related one by one. -/
theorem Recipe.Alike.parts (alike : Recipe.Alike related recipe recipe') :
    List.Forall₂ related recipe.parts recipe'.parts := by
  cases alike with
  | plain | gap | null => exact .nil
  | admitting _ _ same | array same => exact .cons same .nil
  | record keys values => exact .cons keys (.cons values .nil)
  | object same =>
    rw [Recipe.parts, Recipe.parts, List.forall₂_map_left_iff, List.forall₂_map_right_iff]
    exact same.imp fun _ _ entry => entry.2
  | union same => exact same

/-- What holds of the parts on each side can be had of related parts. -/
theorem Recipe.Alike.and (alike : Recipe.Alike related recipe recipe') {holds holds' : Term → Prop}
    (here : ∀ part ∈ recipe.parts, holds part) (there : ∀ part ∈ recipe'.parts, holds' part) :
    Recipe.Alike (fun part part' => related part part' ∧ holds part ∧ holds' part')
      recipe recipe' := by
  cases alike with
  | plain shape => exact .plain shape
  | gap reason => exact .gap reason
  | null => exact .null
  | admitting optional nullable same =>
    exact .admitting optional nullable ⟨same, here _ List.mem_cons_self, there _ List.mem_cons_self⟩
  | array same => exact .array ⟨same, here _ List.mem_cons_self, there _ List.mem_cons_self⟩
  | record keys values =>
    have second : ∀ key value : Term, value ∈ [key, value] := fun _ _ =>
      List.mem_cons_of_mem _ List.mem_cons_self
    exact .record ⟨keys, here _ List.mem_cons_self, there _ List.mem_cons_self⟩
      ⟨values, here _ (second _ _), there _ (second _ _)⟩
  | @object members members' same =>
    have here : ∀ entry ∈ members, holds entry.2 := fun entry member =>
      here _ (List.mem_map_of_mem member)
    have there : ∀ entry ∈ members', holds' entry.2 := fun entry member =>
      there _ (List.mem_map_of_mem member)
    exact .object ((forall₂_and same here there).imp fun _ _ entry =>
      ⟨entry.1.1, entry.1.2, entry.2⟩)
  | union same => exact .union (forall₂_and same here there)

end Alike

/-! ### Terms that are read to the end -/

namespace Script

/-- The builders that a term stands for are nested less than so many deep. -/
def Environment.ReadsWithin (env : Environment) : Nat → Term → Prop
  | 0, _ => False
  | depth + 1, term => ∀ part ∈ (env.recipe term).parts, env.ReadsWithin depth part

section Readable

variable {env : Environment} {term : Term}

theorem Environment.ReadsWithin.mono {depth deeper : Nat} (reads : env.ReadsWithin depth term)
    (within : depth ≤ deeper) : env.ReadsWithin deeper term := by
  induction depth generalizing term deeper with
  | zero => exact reads.elim
  | succ depth ih =>
    cases deeper with
    | zero => exact absurd within (Nat.not_succ_le_zero depth)
    | succ deeper => exact fun part member => ih (reads part member) (Nat.le_of_succ_le_succ within)

/-- Two depths that both reach the end of a term read the same. -/
theorem Environment.ReadsWithin.unique {depth depth' : Nat} (reads : env.ReadsWithin depth term)
    (reads' : env.ReadsWithin depth' term) : validatorTo env depth term = validatorTo env depth' term := by
  induction depth generalizing term depth' with
  | zero => exact reads.elim
  | succ depth ih =>
    cases depth' with
    | zero => exact reads'.elim
    | succ depth' =>
      rw [validatorTo_succ_eq, validatorTo_succ_eq]
      exact Recipe.validator_congr (fun part member => ih (reads part member) (reads' part member)) _

/-- Some depth reaches the end of the term. -/
def Environment.IsReadable (env : Environment) (term : Term) : Prop :=
  ∃ depth, env.ReadsWithin depth term

/-- Of terms that are read to the end, one depth reaches the ends of all. -/
theorem Environment.exists_readsWithin {terms : List Term}
    (readable : ∀ term ∈ terms, env.IsReadable term) :
    ∃ depth, ∀ term ∈ terms, env.ReadsWithin depth term := by
  induction terms with
  | nil => exact ⟨0, fun _ member => nomatch member⟩
  | cons term rest ih =>
    obtain ⟨depth, first⟩ := readable term List.mem_cons_self
    obtain ⟨depth', others⟩ := ih fun term member => readable term (List.mem_cons_of_mem _ member)
    refine ⟨max depth depth', List.forall_mem_cons.mpr ⟨first.mono (Nat.le_max_left _ _), ?_⟩⟩
    exact fun term member => (others term member).mono (Nat.le_max_right _ _)

/-- A term is read to the end where the parts of its recipe are. -/
theorem Environment.isReadable_iff :
    env.IsReadable term ↔ ∀ part ∈ (env.recipe term).parts, env.IsReadable part := by
  constructor
  · rintro ⟨depth, reads⟩ part member
    cases depth with
    | zero => exact reads.elim
    | succ depth => exact ⟨depth, reads part member⟩
  · intro readable
    obtain ⟨depth, reads⟩ := exists_readsWithin readable
    exact ⟨depth + 1, reads⟩

end Readable

/-! ### Regrouping -/

/-- A term in one module is a term in another with unions in another order and grouping. -/
inductive Environment.Regroups : Environment → Term → Environment → Term → Prop
  /-- Nothing is changed. -/
  | refl (env : Environment) (term : Term) : Regroups env term env term
  /-- A change is taken back. -/
  | symm {env env' : Environment} {term term' : Term} (change : Regroups env term env' term') :
    Regroups env' term' env term
  /-- Two changes, one after the other. -/
  | trans {env env' env'' : Environment} {term term' term'' : Term}
    (first : Regroups env term env' term') (second : Regroups env' term' env'' term'') :
    Regroups env term env'' term''
  /-- The members of a union are permuted. -/
  | permuted {env : Environment} {term term' : Term} {members members' : List Term}
    (union : env.recipe term = .union members) (union' : env.recipe term' = .union members')
    (perm : members.Perm members') : Regroups env term env term'
  /-- Members in a row, at least one, are made a union of their own. -/
  | nested {env : Environment} {term term' inner : Term} {before group after : List Term}
    (present : group ≠ []) (flat : env.recipe term = .union (before ++ group ++ after))
    (nested : env.recipe term' = .union (before ++ inner :: after))
    (own : env.recipe inner = .union group) : Regroups env term env term'
  /-- The parts of a builder are changed. -/
  | parts {env env' : Environment} {term term' : Term} {related : Term → Term → Prop}
    (alike : Recipe.Alike related (env.recipe term) (env'.recipe term'))
    (change : ∀ part part', related part part' → Regroups env part env' part') :
    Regroups env term env' term'

section Regroups

variable {env env' : Environment} {term term' : Term}

/-- The two terms are read to the end both or none, and then they are read the same in outline. -/
def Environment.ReadsAlike (env : Environment) (term : Term) (env' : Environment) (term' : Term) : Prop :=
  (env.IsReadable term ↔ env'.IsReadable term') ∧
    ∀ {depth depth' : Nat}, env.ReadsWithin depth term → env'.ReadsWithin depth' term' →
      (validatorTo env depth term).textless sorted = (validatorTo env' depth' term').textless sorted

/-- It is enough to compare what one more level makes of parts that are read to the end. -/
theorem Environment.readsAlike_of_recipes
    (readable : (∀ part ∈ (env.recipe term).parts, env.IsReadable part) ↔
      ∀ part ∈ (env'.recipe term').parts, env'.IsReadable part)
    (same : ∀ {depth depth' : Nat}, (∀ part ∈ (env.recipe term).parts, env.ReadsWithin depth part) →
      (∀ part ∈ (env'.recipe term').parts, env'.ReadsWithin depth' part) → ∀ text text',
        ((env.recipe term).validator (validatorTo env depth) text).textless sorted =
          ((env'.recipe term').validator (validatorTo env' depth') text').textless sorted) :
    env.ReadsAlike term env' term' := by
  refine ⟨isReadable_iff.trans (readable.trans isReadable_iff.symm), ?_⟩
  intro depth depth' reads reads'
  cases depth with
  | zero => exact reads.elim
  | succ depth =>
    cases depth' with
    | zero => exact reads'.elim
    | succ depth' =>
      rw [validatorTo_succ_eq, validatorTo_succ_eq]
      exact same reads reads' _ _

theorem Environment.map_validatorTo_unique {depth depth' : Nat} {terms : List Term}
    (reads : ∀ term ∈ terms, env.ReadsWithin depth term)
    (reads' : ∀ term ∈ terms, env.ReadsWithin depth' term) :
    terms.map (validatorTo env depth) = terms.map (validatorTo env depth') :=
  List.map_congr_left fun term member => (reads term member).unique (reads' term member)

theorem Environment.readsAlike_of_permuted {members members' : List Term}
    (union : env.recipe term = .union members) (union' : env.recipe term' = .union members')
    (perm : members.Perm members') : env.ReadsAlike term env term' := by
  refine readsAlike_of_recipes ?_ ?_
  · rw [union, union']
    exact forall_congr' fun part => by rw [Recipe.parts, Recipe.parts, perm.mem_iff]
  · intro depth depth' reads reads' text text'
    rw [union, Recipe.parts] at reads
    rw [union', Recipe.parts] at reads'
    rw [union, union', Recipe.validator, Recipe.validator,
      map_validatorTo_unique reads fun member held => reads' member (perm.mem_iff.mp held)]
    exact unionOf_perm (perm.map _) text text'

theorem Environment.readsAlike_of_nested {inner : Term} {before group after : List Term}
    (present : group ≠ []) (flat : env.recipe term = .union (before ++ group ++ after))
    (nested : env.recipe term' = .union (before ++ inner :: after))
    (own : env.recipe inner = .union group) : env.ReadsAlike term env term' := by
  have inside : env.IsReadable inner ↔ ∀ part ∈ group, env.IsReadable part := by
    rw [isReadable_iff, own, Recipe.parts]
  refine readsAlike_of_recipes ?_ ?_
  · rw [flat, nested, Recipe.parts, Recipe.parts, List.forall_mem_append, List.forall_mem_append,
      List.forall_mem_append, List.forall_mem_cons, inside, and_assoc]
  · intro depth depth' reads reads' text text'
    rw [flat] at reads ⊢
    rw [nested] at reads' ⊢
    obtain ⟨⟨first, middle⟩, last⟩ := List.forall_mem_append.mp reads |>.imp_left List.forall_mem_append.mp
    obtain ⟨first', others'⟩ := List.forall_mem_append.mp reads'
    obtain ⟨union', last'⟩ := List.forall_mem_cons.mp others'
    cases depth' with
    | zero => exact union'.elim
    | succ depth' =>
      -- The group is read one level less deep inside the union of its own.
      have middle' : ∀ part ∈ group, env.ReadsWithin depth' part := by
        rwa [ReadsWithin, own, Recipe.parts] at union'
      rw [Recipe.validator, Recipe.validator, List.map_append, List.map_append, List.map_append,
        List.map_cons, validatorTo_succ_eq env depth' inner, own, Recipe.validator,
        map_validatorTo_unique first first', map_validatorTo_unique middle middle',
        map_validatorTo_unique last last']
      exact (unionOf_nested isArrangement_sorted (fun none => present (List.map_eq_nil_iff.mp none))
        _ _ _ _ _).symm

theorem Environment.readsAlike_of_parts {related : Term → Term → Prop}
    (alike : Recipe.Alike related (env.recipe term) (env'.recipe term'))
    (change : ∀ part part', related part part' → env.ReadsAlike part env' part') :
    env.ReadsAlike term env' term' := by
  refine readsAlike_of_recipes ?_ ?_
  · have parts := alike.parts
    generalize (env.recipe term).parts = parts, (env'.recipe term').parts = parts' at parts
    induction parts with
    | nil => exact iff_of_true (fun _ member => nomatch member) fun _ member => nomatch member
    | cons part _ ih =>
      rw [List.forall_mem_cons, List.forall_mem_cons, (change _ _ part).1]
      exact and_congr_right' ih
  · intro depth depth' reads reads' text text'
    exact (alike.and reads reads').textless_validator isArrangement_sorted
      (fun part => (change _ _ part.1).2 part.2.1 part.2.2) text text'

theorem Environment.Regroups.readsAlike (regroups : env.Regroups term env' term') :
    env.ReadsAlike term env' term' := by
  induction regroups with
  | refl env term => exact ⟨Iff.rfl, fun reads reads' => by rw [reads.unique reads']⟩
  | symm _ ih => exact ⟨ih.1.symm, fun reads reads' => (ih.2 reads' reads).symm⟩
  | trans _ _ ih ih' =>
    refine ⟨ih.1.trans ih'.1, fun reads reads' => ?_⟩
    obtain ⟨depth, between⟩ := ih.1.mp ⟨_, reads⟩
    exact (ih.2 reads between).trans (ih'.2 between reads')
  | permuted union union' perm => exact readsAlike_of_permuted union union' perm
  | nested present flat nested own => exact readsAlike_of_nested present flat nested own
  | parts alike _ ih => exact readsAlike_of_parts alike ih

/-- **The order and the grouping of unions do not count.** A field of a regrouped term has the same
leave and the same validator, up to texts and the order of the values of enumerations. -/
theorem Environment.Regroups.textless_declare (regroups : env.Regroups term env' term')
    {depth depth' : Nat} (reads : env.ReadsWithin depth term) (reads' : env'.ReadsWithin depth' term')
    (name : String) :
    Field.allTextless sorted [.declare name (validatorTo env depth term) false] =
      Field.allTextless sorted [.declare name (validatorTo env' depth' term') false] := by
  rw [Field.allTextless_declare, Field.allTextless_declare, regroups.readsAlike.2 reads reads']

end Regroups

/-- A builder with its arguments, written as a call of a member. -/
def builderCall (name : String) (arguments : List Term) : Term :=
  ⟨.call ⟨.member ⟨.name "v", "v"⟩ name, "v." ++ name⟩ arguments, "v." ++ name ++ "(...)"⟩

/-- A list whose elements are one of three texts or null, by a name: the leave for null leaves the inner
union, and the values of the enumeration stand in another order. -/
theorem nullableEnumeration_regrouped :
    let literal : String → Term := fun value => builderCall "literal" [⟨.string value, value⟩]
    let null := builderCall "null" []
    let union := builderCall "union"
    let inner := union [literal "b", null, literal "a"]
    let env : Environment :=
      ⟨[("letters", union [union [literal "a", null], literal "b", literal "c"])], []⟩
    let env' : Environment := ⟨[("letters", union [literal "c", inner])], []⟩
    let term := builderCall "array" [⟨.name "letters", "letters"⟩]
    env.ReadsWithin maximalSteps term ∧ env'.ReadsWithin maximalSteps term ∧
      (∀ name, Field.allTextless sorted [.declare name (validatorTo env maximalSteps term) false] =
        Field.allTextless sorted [.declare name (validatorTo env' maximalSteps term) false]) ∧
      validatorTo env maximalSteps term =
        .ofShape (.array ⟨.enumeration ["a", "b", "c"], false, true⟩) ∧
      validatorTo env' maximalSteps term =
        .ofShape (.array ⟨.enumeration ["c", "b", "a"], false, true⟩) := by
  intro literal null union inner env env' term
  have unions : ∀ (env : Environment) members, env.recipe (union members) = .union members :=
    fun _ _ => rfl
  have literals : ∀ (env : Environment) value,
    env.recipe (literal value) = .plain (.enumeration [value]) := fun _ _ => rfl
  have nulls : ∀ env : Environment, env.recipe null = .null := fun _ => rfl
  have array : ∀ env : Environment, env.recipe term = .array ⟨.name "letters", "letters"⟩ := fun _ => rfl
  have letters : env.recipe ⟨.name "letters", "letters"⟩ =
    .union [union [literal "a", null], literal "b", literal "c"] := rfl
  have letters' : env'.recipe ⟨.name "letters", "letters"⟩ = .union [literal "c", inner] := rfl
  -- Inside the first module the members are taken out of their union, turned round and put into one.
  have here : env.Regroups ⟨.name "letters", "letters"⟩ env (union [literal "c", inner]) :=
    .trans (.symm (.nested (List.cons_ne_nil _ _) (unions env ([] ++ [_, _] ++ _)) letters (unions env _)))
      (.trans (.permuted (unions env _) (unions env _) (List.reverse_perm [_, _, _, _]).symm)
        (.nested (List.cons_ne_nil _ _) (unions env ([_] ++ [_, _, _] ++ [])) (unions env ([_] ++ [_]))
          (unions env _)))
  -- The second module has what comes of this, part by part.
  have within : ∀ {part part' : Term}, Recipe.Alike (fun part part' => env.Regroups part env' part')
      (env.recipe part) (env'.recipe part') → env.Regroups part env' part' :=
    fun alike => .parts alike fun _ _ change => change
  have leaf : ∀ value, env.Regroups (literal value) env' (literal value) := fun value => within (.plain _)
  have group : env.Regroups inner env' inner :=
    within (.union (.cons (leaf "b") (.cons (within .null) (.cons (leaf "a") .nil))))
  have there : env.Regroups (union [literal "c", inner]) env' ⟨.name "letters", "letters"⟩ :=
    within (.union (.cons (leaf "c") (.cons group .nil)))
  have regroups : env.Regroups term env' term := within (.array (here.trans there))
  have reads : env.ReadsWithin maximalSteps term := by
    have reads : env.ReadsWithin 4 term := by
      simp [Environment.ReadsWithin, array, letters, unions, literals, nulls, Recipe.parts]
    exact reads.mono (by decide)
  have reads' : env'.ReadsWithin maximalSteps term := by
    have reads : env'.ReadsWithin 4 term := by
      simp [inner, Environment.ReadsWithin, array, letters', unions, literals, nulls, Recipe.parts]
    exact reads.mono (by decide)
  exact ⟨reads, reads', regroups.textless_declare reads reads', rfl, rfl⟩

end Script

end SwiftBindings
