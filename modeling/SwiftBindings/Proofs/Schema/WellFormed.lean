/-
**Schemas as they are read.**

Whatever a module writes, the schema that is read from it is well formed (`Schema.IsWellFormed`): no two
tables and no two fields of an object have one name, enumerations have values, each once, and a field
has the leave of its validator. Validators stand within each other as deep as builders are read, and a
last one where reading stops, so a value that refers to itself makes no exception.

* `Recipe.isSound_validator`: what a recipe makes of sound validators is sound.
* `Schema.isWellFormed_of_read`: every schema that is read is well formed.
-/

import SwiftBindings.Proofs.Schema.Endless
import SwiftBindings.Proofs.Schema.Recipes
import SwiftBindings.Proofs.Schema.Spreads

namespace SwiftBindings

open Script

/-! ### Sound validators -/

mutual

/-- The fields of every object have different names and the leave of their validators, and every
enumeration has values, each once. -/
def Shape.IsSound : Shape → Prop
  | .array element => element.IsSound
  | .record none value => value.IsSound
  | .record (some key) value => key.IsSound ∧ value.IsSound
  | .object fields => (fields.map Field.name).Nodup ∧ Field.AreSound fields
  | .enumeration values => values ≠ [] ∧ values.Nodup
  | .string | .number | .boolean | .id _ | .any | .unknown _ _ => True

/-- The shape of the validator is sound. -/
def Validator.IsSound : Validator → Prop
  | ⟨shape, _, _⟩ => shape.IsSound

/-- Each field has the leave of its validator, and this is sound. -/
def Field.AreSound : List Field → Prop
  | [] => True
  | ⟨_, optional, nullable, schema⟩ :: rest =>
    optional = schema.optional ∧ nullable = schema.nullable ∧ schema.IsSound ∧ Field.AreSound rest

end

mutual

/-- How many validators stand within each other below the shape. -/
def Shape.depth : Shape → Nat
  | .array element => element.depth
  | .record none value => value.depth
  | .record (some key) value => max key.depth value.depth
  | .object fields => Field.depths fields
  | .enumeration _ | .string | .number | .boolean | .id _ | .any | .unknown _ _ => 0

/-- How many validators stand within each other. -/
def Validator.depth : Validator → Nat
  | ⟨shape, _, _⟩ => shape.depth + 1

/-- The greatest depth of a field's validator. -/
def Field.depths : List Field → Nat
  | [] => 0
  | ⟨_, _, _, schema⟩ :: rest => max schema.depth (Field.depths rest)

end

/-- The shape is sound, with at most so many validators below it. -/
def Shape.SoundWithin (bound : Nat) (shape : Shape) : Prop :=
  shape.IsSound ∧ shape.depth ≤ bound

/-- The validator is sound, and at most so many stand within each other. -/
def Validator.SoundWithin (bound : Nat) (validator : Validator) : Prop :=
  validator.IsSound ∧ validator.depth ≤ bound

section Sound

variable {bound : Nat}

theorem Validator.soundWithin_iff {validator : Validator} :
    validator.SoundWithin (bound + 1) ↔ validator.shape.SoundWithin bound := by
  obtain ⟨shape, optional, nullable⟩ := validator
  rw [SoundWithin, IsSound, depth, Nat.succ_le_succ_iff]
  rfl

theorem Validator.SoundWithin.succ {validator : Validator} (sound : validator.SoundWithin bound) :
    validator.SoundWithin (bound + 1) :=
  ⟨sound.1, Nat.le_succ_of_le sound.2⟩

theorem Validator.soundWithin_admitting {validator : Validator} {optional nullable : Bool}
    (sound : validator.SoundWithin bound) :
    (validator.admitting optional nullable).SoundWithin bound := by
  obtain ⟨shape, _, _⟩ := validator
  exact sound

theorem Field.areSound_iff {fields : List Field} : Field.AreSound fields ↔ ∀ field ∈ fields,
    field.optional = field.schema.optional ∧ field.nullable = field.schema.nullable ∧
      field.schema.IsSound := by
  induction fields with
  | nil => exact iff_of_true trivial (List.forall_mem_nil _)
  | cons field rest ih =>
    obtain ⟨name, optional, nullable, schema⟩ := field
    rw [Field.AreSound, ih, List.forall_mem_cons, and_assoc, and_assoc]

theorem Field.depths_le_iff {fields : List Field} :
    Field.depths fields ≤ bound ↔ ∀ field ∈ fields, field.schema.depth ≤ bound := by
  induction fields with
  | nil => exact iff_of_true (Nat.zero_le _) (List.forall_mem_nil _)
  | cons field rest ih =>
    obtain ⟨name, optional, nullable, schema⟩ := field
    rw [Field.depths, Nat.max_le, ih, List.forall_mem_cons]

/-- Fields that are declared by members of different names make a sound object. -/
theorem soundWithin_object {members : Members} {inner : Term → Validator}
    (distinct : (members.map Prod.fst).Nodup)
    (sound : ∀ entry ∈ members, (inner entry.2).SoundWithin bound) :
    (Shape.object (members.map fun entry => .declare entry.1 (inner entry.2) false)).SoundWithin
      bound := by
  have names : (members.map fun entry => Field.declare entry.1 (inner entry.2) false).map Field.name =
      members.map Prod.fst := by
    rw [List.map_map]
    rfl
  refine ⟨?_, ?_⟩
  · rw [Shape.IsSound, names, Field.areSound_iff]
    refine ⟨distinct, fun field member => ?_⟩
    obtain ⟨entry, held, rfl⟩ := List.mem_map.mp member
    exact ⟨Bool.or_false _, rfl, (sound entry held).1⟩
  · rw [Shape.depth, Field.depths_le_iff]
    intro field member
    obtain ⟨entry, held, rfl⟩ := List.mem_map.mp member
    exact (sound entry held).2

/-- A union of sound shapes is sound. -/
theorem soundWithin_unionShape (text : String) {shapes : List Shape}
    (sound : ∀ shape ∈ shapes, shape.SoundWithin bound) :
    (unionShape text shapes).SoundWithin bound := by
  match shapes with
  | [] => exact ⟨trivial, Nat.zero_le _⟩
  | [shape] => exact sound shape (List.mem_singleton_self _)
  | first :: second :: rest =>
    rw [unionShape_classes text (by simp)]
    split
    · rename_i enumerations
      refine ⟨?_, Nat.zero_le _⟩
      rw [Shape.IsSound]
      refine ⟨?_, nodup_eraseDups _⟩
      have values : first.values ≠ [] := by
        have one := List.all_eq_true.mp enumerations first List.mem_cons_self
        have full := (sound first List.mem_cons_self).1
        cases first with
        | enumeration values => exact full.1
        | _ => cases one
      obtain ⟨value, held⟩ := List.exists_mem_of_ne_nil _ values
      refine List.ne_nil_of_mem (List.mem_eraseDups.mpr (List.mem_flatMap.mpr ?_)) (a := value)
      exact ⟨first, List.mem_cons_self, held⟩
    · split
      · exact ⟨trivial, Nat.zero_le _⟩
      · split <;> exact ⟨trivial, Nat.zero_le _⟩

end Sound

/-! ### Sound recipes -/

/-- A shape without parts is sound, and no two members of an object have one name. -/
def Recipe.IsSound : Recipe → Prop
  | .plain shape => shape.SoundWithin 0
  | .object members => (members.map Prod.fst).Nodup
  | _ => True

theorem literalShape?_soundWithin {term : Term} {shape : Shape} (found : literalShape? term = some shape) :
    shape.SoundWithin 0 := by
  unfold literalShape? at found
  split at found
  · cases found
    exact ⟨⟨List.cons_ne_nil _ _, List.nodup_singleton _⟩, Nat.le_refl _⟩
  · cases found
    exact ⟨trivial, Nat.le_refl _⟩
  · split at found
    · cases found
      exact ⟨trivial, Nat.le_refl _⟩
    · cases found

section Recipes

variable (env : Environment)

theorem Recipe.isSound_ofCall (term : Term) (call : Call) : (Recipe.ofCall env term call).IsSound := by
  unfold Recipe.ofCall
  split
  case h_8 literal _ _ _ =>
    cases found : literalShape? (env.resolve literal) with
    | some shape => exact literalShape?_soundWithin found
    | none => trivial
  case h_13 =>
    cases env.objectEntries? term with
    | some entries =>
      rw [Recipe.IsSound, Environment.members, Environment.membersTo_eq]
      exact Keyed.nodup_ofList _
    | none => trivial
  all_goals trivial

theorem Script.Environment.isSound_recipe (term : Term) : (env.recipe term).IsSound := by
  rw [Environment.recipe]
  split
  · exact Recipe.isSound_ofCall env _ _
  · trivial

/-- **What a sound recipe makes of sound validators is sound,** and nests one level deeper. -/
theorem Recipe.IsSound.validator {recipe : Recipe} (sound : recipe.IsSound) {bound : Nat}
    {inner : Term → Validator} (parts : ∀ part, (inner part).SoundWithin (bound + 1)) (text : String) :
    (recipe.validator inner text).SoundWithin (bound + 2) := by
  cases recipe with
  | plain shape => exact Validator.soundWithin_iff.mpr ⟨sound.1, sound.2.trans (Nat.zero_le _)⟩
  | gap reason => exact Validator.soundWithin_iff.mpr ⟨trivial, Nat.zero_le _⟩
  | null => exact Validator.soundWithin_iff.mpr ⟨trivial, Nat.zero_le _⟩
  | admitting optional nullable part => exact (Validator.soundWithin_admitting (parts part)).succ
  | array element => exact Validator.soundWithin_iff.mpr (parts element)
  | record key value =>
    exact Validator.soundWithin_iff.mpr
      ⟨⟨(parts key).1, (parts value).1⟩, Nat.max_le.mpr ⟨(parts key).2, (parts value).2⟩⟩
  | object members => exact Validator.soundWithin_iff.mpr (soundWithin_object sound fun _ _ => parts _)
  | union members =>
    refine (Validator.soundWithin_iff.mpr (soundWithin_unionShape text fun shape member => ?_)).succ
    obtain ⟨present, held, rfl⟩ := List.mem_map.mp member
    obtain ⟨part, _, rfl⟩ := List.mem_map.mp (List.mem_filter.mp held).1
    exact Validator.soundWithin_iff.mp (parts part)

/-- **A validator that is read is sound, and nests one level deeper than builders are read.** -/
theorem validatorTo_soundWithin (depth : Nat) (term : Term) :
    (validatorTo env depth term).SoundWithin (depth + 1) := by
  induction depth generalizing term with
  | zero => exact Validator.soundWithin_iff.mpr ⟨trivial, Nat.zero_le _⟩
  | succ depth ih =>
    rw [validatorTo_succ_eq]
    exact (env.isSound_recipe term).validator ih _

end Recipes

/-! ### Schemas -/

/-- The schema has no two tables of one name, and the fields of each table have different names, sound
validators with their leave, and no more depth than builders are read to. -/
structure Schema.IsWellFormed (schema : Schema) : Prop where
  /-- No two tables have one name. -/
  tables : (schema.tables.map Table.name).Nodup
  /-- No two fields of a table have one name. -/
  names : ∀ table ∈ schema.tables, (table.fields.map Field.name).Nodup
  /-- Each field has the leave of its validator, and all objects and enumerations in it are sound. -/
  fields : ∀ table ∈ schema.tables, Field.AreSound table.fields
  /-- The validators nest no deeper than builders are read, and once more. -/
  depth : ∀ table ∈ schema.tables, ∀ field ∈ table.fields, field.schema.depth ≤ maximalSteps + 1

section Tables

variable (env : Environment)

theorem Table.eq_of_ofCall {name : String} {indexes : List Index} {call : Call} {table : Table}
    (made : Table.ofCall env name indexes call = .ok table) :
    ∃ entries, table = ⟨name, fieldsOf env (validatorTo env maximalSteps) entries, indexes⟩ := by
  rw [Table.ofCall] at made
  split at made
  · cases made
  · split at made
    · rename_i entries _
      cases made
      exact ⟨entries, rfl⟩
    · cases made

/-- A table that is read has its name and the fields of some entries. -/
theorem Script.Environment.eq_of_table? {name : String} {indexes : List Index} {term : Term}
    {table : Table} (read : env.table? name indexes term = some (.ok table)) :
    ∃ entries indexes',
      table = ⟨name, fieldsOf env (validatorTo env maximalSteps) entries, indexes'⟩ := by
  refine Script.Environment.table?.partial_correctness env name (fun _ _ result =>
    ∀ table, result = .ok table → ∃ entries indexes',
      table = ⟨name, fieldsOf env (validatorTo env maximalSteps) entries, indexes'⟩) ?_
    indexes term _ read table rfl
  intro inner known indexes term result read table ok
  subst ok
  cases called : term.call? with
  | none =>
    rw [called] at read
    cases read
  | some call =>
    simp only [called] at read
    split at read
    · exact known _ _ _ read table rfl
    · obtain ⟨entries, same⟩ := Table.eq_of_ofCall env (Option.some.inj read)
      exact ⟨entries, indexes, same⟩

/-- The fields of entries are sound. -/
theorem fieldsOf_sound (entries : List Entry) {fields : List Field}
    (same : fields = fieldsOf env (validatorTo env maximalSteps) entries) :
    (fields.map Field.name).Nodup ∧ Field.AreSound fields ∧
      ∀ field ∈ fields, field.schema.depth ≤ maximalSteps + 1 := by
  have distinct : ((env.members entries).map Prod.fst).Nodup := by
    rw [Environment.members, Environment.membersTo_eq]
    exact Keyed.nodup_ofList _
  obtain ⟨sound, deep⟩ := soundWithin_object distinct fun entry _ =>
    validatorTo_soundWithin env maximalSteps entry.2
  rw [Shape.depth, Field.depths_le_iff] at deep
  rw [same, fieldsOf]
  exact ⟨sound.1, sound.2, deep⟩

/-- The tables of entries have the entries' names, and sound fields. -/
theorem tablesOfEntries_sound {entries : Members} {tables : List Table}
    (read : tablesOfEntries env entries = some (.ok tables)) :
    tables.map Table.name = entries.map Prod.fst ∧ ∀ table ∈ tables,
      (table.fields.map Field.name).Nodup ∧ Field.AreSound table.fields ∧
        ∀ field ∈ table.fields, field.schema.depth ≤ maximalSteps + 1 := by
  induction entries generalizing tables with
  | nil =>
    cases read
    exact ⟨rfl, List.forall_mem_nil _⟩
  | cons entry rest ih =>
    obtain ⟨name, value⟩ := entry
    rw [tablesOfEntries] at read
    obtain ⟨first, readFirst, read⟩ := Option.bind_eq_some_iff.mp read
    cases first with
    | error fault => cases read
    | ok table =>
      obtain ⟨others, readOthers, read⟩ := Option.map_eq_some_iff.mp read
      cases others with
      | error fault => cases read
      | ok others =>
        cases read
        obtain ⟨entries, indexes, rfl⟩ := env.eq_of_table? readFirst
        obtain ⟨names, sound⟩ := ih readOthers
        rw [List.map_cons, List.map_cons, names]
        exact ⟨rfl, List.forall_mem_cons.mpr ⟨fieldsOf_sound env entries rfl, sound⟩⟩

/-- The tables of a module are those of the members of some object. -/
theorem entries_of_schemaTables {tables : List Table} (read : schemaTables env = some (.ok tables)) :
    ∃ literal, tablesOfEntries env (env.members literal) = some (.ok tables) := by
  rw [schemaTables] at read
  split at read
  · cases read
  · rename_i arguments _
    obtain ⟨found, readFound, same⟩ := Option.map_eq_some_iff.mp read
    cases found with
    | error fault => cases same
    | ok found =>
      cases same
      cases arguments with
      | nil => cases readFound
      | cons argument others =>
        rw [tablesOf] at readFound
        split at readFound
        · exact ⟨_, readFound⟩
        · cases readFound

end Tables

/-- **Every schema that is read from the items of a module is well formed.** -/
theorem Schema.isWellFormed_of_read {path : String} {items : List ModuleItem} {schema : Schema}
    (read : Schema.ofItems? path items = some (.ok schema)) : schema.IsWellFormed := by
  obtain ⟨found, readFound, same⟩ := Option.map_eq_some_iff.mp read
  cases found with
  | error fault => cases same
  | ok tables =>
    cases same
    obtain ⟨literal, readTables⟩ := entries_of_schemaTables _ readFound
    obtain ⟨names, sound⟩ := tablesOfEntries_sound _ readTables
    refine ⟨?_, fun table member => (sound table member).1, fun table member => (sound table member).2.1,
      fun table member => (sound table member).2.2⟩
    rw [names, Environment.members, Environment.membersTo_eq]
    exact Keyed.nodup_ofList _

/-- A module whose table has a field of lists of lists without an end. -/
def nestedLists : String :=
  "const n=v.array(n),s=defineSchema(\x7bt:defineTable(\x7bn\x7d)\x7d)"

/-- Its schema is well formed; the validator of the field is as deep as one can be. -/
theorem nestedLists_isWellFormed : ∃ schema,
    Schema.read? "schema.ts" nestedLists = some (.ok schema) ∧ schema.IsWellFormed ∧
      ∃ table ∈ schema.tables, ∃ field ∈ table.fields, field.schema.depth = maximalSteps + 1 := by
  let field : Term := ⟨.name "n", "n"⟩
  let table : Term := ⟨.call ⟨.name "defineTable", "defineTable"⟩
    [⟨.object [.property "n" field], "\x7bn\x7d"⟩], "defineTable(\x7bn\x7d)"⟩
  let items : List ModuleItem :=
    [.binding "n" ⟨.call ⟨.member ⟨.name "v", "v"⟩ "array", "v.array"⟩ [field], "v.array(n)"⟩,
      .binding "s" ⟨.call ⟨.name "defineSchema", "defineSchema"⟩
        [⟨.object [.property "t" table], "\x7bt:defineTable(\x7bn\x7d)\x7d"⟩],
          "defineSchema(\x7bt:defineTable(\x7bn\x7d)\x7d)"⟩]
  have parsed : readModule nestedLists = .ok items := by decide +kernel
  let env := Environment.ofItems items
  have tables : schemaTables env = some (.ok
      [⟨"t", [.declare "n" (validatorTo env maximalSteps field) false], []⟩]) := by
    show (tablesOfEntries env [("t", table)]).map _ = _
    have called : (env.resolve table).call? = some ⟨_, _, _⟩ := rfl
    rw [tablesOfEntries, env.table?_of_call "t" rfl called []]
    rfl
  have read : Schema.ofItems? "schema.ts" items = _ := congrArg (Option.map _) tables
  exact ⟨_, (Schema.read?_of_ok parsed).trans read, Schema.isWellFormed_of_read read, _, List.mem_cons_self, _, List.mem_cons_self, rfl⟩

end SwiftBindings
