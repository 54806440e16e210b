/-
**A file declares what it mentions.**

A type mentions the value of unknown shape, the markers of the tables whose rows it identifies, and
structs and enumerations by name (`SwiftType.mentions`). While a file is rendered, whatever the registry
provides is mentioned by a property of a registered struct, or by a type that has been answered and has
not found its place yet: `Registry.Accounts` is this balance, with the open mentions beside the
registry. Rendering a type opens what the type mentions; registering a struct closes what its properties
mention and opens its own name, also where an equal struct was registered before, since that one has the
same properties.

**The main statement.** `bindings_supported`: in the file of an interface or a schema the value of
unknown shape is supported exactly where it is mentioned, the declared markers are those mentioned, and
every enumeration is mentioned, and so is every struct but those of arguments, results and documents.
-/

import SwiftBindings.Proofs.Swift.GeneratedFile

set_option linter.unusedSectionVars false

namespace SwiftBindings

namespace Swift

/-! ### Mentions -/

/-- What a type can mention of the file it stands in. -/
inductive Mention where
  /-- The value of unknown shape that is read. -/
  | jsonValue
  /-- A table marker. -/
  | marker (name : String)
  /-- A struct or an enumeration. -/
  | named (name : String)
  deriving DecidableEq, Repr

/-- What a type mentions. -/
def SwiftType.mentions : SwiftType → List Mention
  | .jsonValue => [.jsonValue]
  | .id marker => [.marker marker]
  | .named name => [.named name]
  | .array element => element.mentions
  | .dictionary value => value.mentions
  | .optional wrapped => wrapped.mentions
  | .string | .bool | .double | .encodable => []

/-- What the types of properties mention. -/
def mentionsOf (properties : List Property) : List Mention :=
  properties.flatMap fun property => property.type.mentions

/-- What the targets of aliases mention. -/
def aliasMentions (aliases : List Alias) : List Mention :=
  aliases.flatMap fun other => other.target.mentions

/-- What a declaration mentions. -/
def Declaration.mentions : Declaration → List Mention
  | .struct declared => mentionsOf declared.properties
  | .enumeration _ | .marker _ => []

/-- What a type mentions in order to refer to a declaration. -/
def Declaration.mention : Declaration → Mention
  | .struct declared => .named declared.name
  | .enumeration declared => .named declared.name
  | .marker declared => .marker declared.name

@[simp] theorem SwiftType.mentions_orAbsent (type : SwiftType) :
    type.orAbsent.mentions = type.mentions := by
  rw [SwiftType.orAbsent]
  split
  · rfl
  · rfl

theorem Declaration.mentions_rename (name : String) (declaration : Declaration) :
    (declaration.rename name).mentions = declaration.mentions := by
  cases declaration <;> rfl

/-! ### The balance of a registry -/

/-- What is mentioned can be found: the support of the value of unknown shape, or a declaration. -/
def Registry.Provides (registry : Registry) (mention : Mention) : Prop :=
  (mention = .jsonValue ∧ registry.usesJsonValue = true) ∨
    ∃ declaration ∈ registry.declarations, declaration.mention = mention

/-- A registered declaration mentions it. -/
def Registry.Mentions (registry : Registry) (mention : Mention) : Prop :=
  ∃ declaration ∈ registry.declarations, mention ∈ declaration.mentions

/-- What the registry provides is what its declarations mention, and what is open. -/
def Registry.Accounts (registry : Registry) (pending : List Mention) : Prop :=
  ∀ mention, registry.Provides mention ↔ registry.Mentions mention ∨ mention ∈ pending

theorem Registry.accounts_empty : Registry.empty.Accounts [] := by
  intro mention
  constructor
  · rintro (⟨_, none⟩ | ⟨_, none, _⟩)
    · cases none
    · cases none
  · rintro (⟨_, none, _⟩ | none)
    · cases none
    · cases none

section Accounts

variable {registry : Registry} {pending : List Mention}

/-- What is rendered has a place in the registry that admits it. -/
theorem Registry.mem_insert {declaration : Declaration} (admitted : registry.admits declaration = true)
    (other : Declaration) : other ∈ (registry.insert declaration).declarations ↔
      other ∈ registry.declarations ∨ other = declaration := by
  rw [Registry.insert]
  rw [Registry.admits] at admitted
  cases held : registry.find? declaration.name with
  | none => exact List.mem_append.trans (or_congr_right List.mem_singleton)
  | some existing =>
    rw [held] at admitted
    cases beq_iff_eq.mp admitted
    have member : declaration ∈ registry.declarations := List.mem_of_find?_eq_some held
    exact ⟨.inl, fun either => either.elim id fun same => same ▸ member⟩

/-- Registering a declaration closes what it mentions and opens what refers to it. -/
theorem Registry.Accounts.register {declaration : Declaration}
    (accounts : registry.Accounts (pending ++ declaration.mentions)) :
    (registry.register declaration).2.Accounts
      (pending ++ [(declaration.rename (registry.register declaration).1).mention]) := by
  obtain ⟨attempt, admitted, same⟩ := registry.register_eq declaration
  rw [same]
  dsimp only
  generalize renamed : declaration.rename (candidateName declaration.name attempt) = added at admitted ⊢
  have mentions : added.mentions = declaration.mentions := renamed ▸ declaration.mentions_rename _
  have flag : (registry.insert added).usesJsonValue = registry.usesJsonValue := by
    rw [Registry.insert]
    split <;> rfl
  intro mention
  have before := accounts mention
  have provides : (registry.insert added).Provides mention ↔
      registry.Provides mention ∨ added.mention = mention := by
    simp only [Registry.Provides, flag, Registry.mem_insert admitted, or_and_right, exists_or,
      exists_eq_left, or_assoc]
  have mentioned : (registry.insert added).Mentions mention ↔
      registry.Mentions mention ∨ mention ∈ declaration.mentions := by
    simp only [Registry.Mentions, Registry.mem_insert admitted, or_and_right, exists_or,
      exists_eq_left, mentions]
  rw [provides, mentioned, before, List.mem_append, List.mem_append, List.mem_singleton,
    @eq_comm _ mention]
  simp only [or_assoc, or_left_comm]

/-- Reading a value of unknown shape is mentioned by its type. -/
theorem Registry.Accounts.notingJsonValue (accounts : registry.Accounts pending) :
    registry.notingJsonValue.Accounts (pending ++ SwiftType.jsonValue.mentions) := by
  intro mention
  have provides : registry.notingJsonValue.Provides mention ↔
      registry.Provides mention ∨ mention = .jsonValue := by
    constructor
    · rintro (⟨same, _⟩ | declared)
      · exact .inr same
      · exact .inl (.inr declared)
    · rintro ((⟨same, _⟩ | declared) | same)
      · exact .inl ⟨same, rfl⟩
      · exact .inr declared
      · exact .inl ⟨same, rfl⟩
  have mentioned : registry.notingJsonValue.Mentions mention ↔ registry.Mentions mention := Iff.rfl
  rw [provides, mentioned, accounts mention, List.mem_append, SwiftType.mentions, List.mem_singleton,
    or_assoc]

end Accounts

/-! ### Rendering -/

mutual

/-- **Rendering a shape opens what its type mentions.** -/
theorem Registry.Accounts.renderShape (path : List String) (side : Side) {registry : Registry}
    {pending : List Mention} (accounts : registry.Accounts pending) :
    ∀ shape : Shape, (registry.renderShape path side shape).2.Accounts
      (pending ++ (registry.renderShape path side shape).1.mentions)
  | .string | .number | .boolean | .id none => by
    rw [Registry.renderShape]
    exact (List.append_nil pending).symm ▸ accounts
  | .id (some table) => by
    rw [Registry.renderShape]
    generalize typeName [table] ++ "Table" = name
    have own : registry.Accounts (pending ++ (Declaration.marker ⟨name, table⟩).mentions) :=
      (List.append_nil pending).symm ▸ accounts
    exact own.register
  | .array ⟨shape, _, _⟩ => by
    rw [Registry.renderShape]
    exact Registry.Accounts.renderShape (path ++ ["Item"]) side accounts shape
  | .record _ ⟨shape, _, _⟩ => by
    rw [Registry.renderShape]
    exact Registry.Accounts.renderShape (path ++ ["Value"]) side accounts shape
  | .object fields => by
    have inner := Registry.Accounts.renderProperties path side generatedMembers accounts fields
    rw [Registry.renderShape]
    generalize typeName path = name
    have own : Registry.Accounts _ (pending ++ (Declaration.struct ⟨name, side, _⟩).mentions) := inner
    exact own.register
  | .enumeration values => by
    rw [Registry.renderShape]
    generalize typeName path ++ "Enum" = name
    have own : registry.Accounts
        (pending ++ (Declaration.enumeration ⟨name, Case.ofValues values⟩).mentions) :=
      (List.append_nil pending).symm ▸ accounts
    exact own.register
  | .any | .unknown _ _ => by
    cases side with
    | decode =>
      rw [Registry.renderShape]
      exact accounts.notingJsonValue
    | encode =>
      rw [Registry.renderShape]
      exact (List.append_nil pending).symm ▸ accounts

/-- Rendering fields opens what the types of their properties mention. -/
theorem Registry.Accounts.renderProperties (path : List String) (side : Side)
    (taken : List String) {registry : Registry} {pending : List Mention}
    (accounts : registry.Accounts pending) : ∀ fields : List Field,
      (registry.renderProperties path side taken fields).2.Accounts
        (pending ++ mentionsOf (registry.renderProperties path side taken fields).1)
  | [] => by
    rw [Registry.renderProperties]
    exact (List.append_nil pending).symm ▸ accounts
  | ⟨name, optional, nullable, ⟨shape, absent, null⟩⟩ :: rest => by
    have first := Registry.Accounts.renderShape (path ++ [name]) side accounts shape
    have others := Registry.Accounts.renderProperties path side
      (taken ++ [(Property.ofField taken ⟨name, optional, nullable, ⟨shape, absent, null⟩⟩
        (registry.renderShape (path ++ [name]) side shape).1 side).name]) first rest
    rw [Registry.renderProperties]
    dsimp only
    rw [mentionsOf, List.flatMap_cons, ← List.append_assoc]
    have own : (Property.ofField taken ⟨name, optional, nullable, ⟨shape, absent, null⟩⟩
        (registry.renderShape (path ++ [name]) side shape).1 side).type.mentions =
          (registry.renderShape (path ++ [name]) side shape).1.mentions := by
      show (if _ then _ else _ : SwiftType).mentions = _
      split
      · exact SwiftType.mentions_orAbsent _
      · rfl
    rw [own]
    exact others

end

section Requests

variable {registry : Registry} {pending : List Mention} (accounts : registry.Accounts pending)

include accounts

/-- Rendering a struct opens its name. -/
theorem Registry.Accounts.renderStruct (fields : List Field) (path : List String) (side : Side) :
    (registry.renderStruct fields path side).2.Accounts
      (pending ++ [.named (registry.renderStruct fields path side).1]) := by
  have inner := accounts.renderProperties path side generatedMembers fields
  rw [Registry.renderStruct]
  generalize typeName path = name
  have own : Registry.Accounts _ (pending ++ (Declaration.struct ⟨name, side, _⟩).mentions) := inner
  exact own.register

/-- Rendering a validator opens what its type mentions. -/
theorem Registry.Accounts.render (validator : Validator) (path : List String) (side : Side) :
    (registry.render validator path side).2.Accounts
      (pending ++ (registry.render validator path side).1.type.mentions) := by
  have inner := accounts.renderShape path side validator.shape
  rw [Registry.render]
  dsimp only
  split
  · rw [SwiftType.mentions_orAbsent]
    exact inner
  · exact inner

end Requests

/-! ### Structs of their own -/

/-- All of the names are those of registered structs. -/
def Registry.HoldsStructs (registry : Registry) (names : List String) : Prop :=
  ∀ name ∈ names, ∃ declared : Struct, registry.find? name = some (.struct declared)

theorem Registry.HoldsStructs.grow {earlier later : Registry} {names : List String}
    (holds : earlier.HoldsStructs names) (grows : earlier.GrowsTo later) : later.HoldsStructs names := by
  intro name member
  obtain ⟨declared, found⟩ := holds name member
  exact ⟨declared, grows.within name _ found⟩

theorem Registry.HoldsStructs.append {registry : Registry} {names others : List String}
    (holds : registry.HoldsStructs names) (further : registry.HoldsStructs others) :
    registry.HoldsStructs (names ++ others) :=
  List.forall_mem_append.mpr ⟨holds, further⟩

/-- A rendered struct is registered under the name that is answered. -/
theorem Registry.renderStruct_holds (registry : Registry) (fields : List Field) (path : List String)
    (side : Side) : (registry.renderStruct fields path side).2.HoldsStructs
      [(registry.renderStruct fields path side).1] := by
  intro name member
  rw [List.mem_singleton.mp member, Registry.renderStruct]
  exact ⟨_, (Registry.register_spec _ _).2.1⟩

/-! ### Files -/

/-- A property of a struct or an alias mentions it. -/
def File.Mentions (file : File) (mention : Mention) : Prop :=
  (∃ declared ∈ file.structs, ∃ property ∈ declared.properties, mention ∈ property.type.mentions) ∨
    ∃ other ∈ file.aliases, mention ∈ other.target.mentions

/-- The support declarations of a file are what it uses; some structs stand on their own. -/
structure File.Supported (file : File) (own : List String) : Prop where
  /-- The value of unknown shape is supported exactly where it is mentioned. -/
  jsonValue : file.usesJsonValue = true ↔ file.Mentions .jsonValue
  /-- The markers are those mentioned. -/
  markers : ∀ name, (∃ marker ∈ file.markers, marker.name = name) ↔ file.Mentions (.marker name)
  /-- Every enumeration is mentioned. -/
  enumerations : ∀ enumeration ∈ file.enumerations, file.Mentions (.named enumeration.name)
  /-- Every struct that does not stand on its own is mentioned. -/
  structs : ∀ declared ∈ file.structs, declared.name ∉ own → file.Mentions (.named declared.name)

section Files

variable (registry : Registry) (header : List String) (aliases : List Alias)

theorem Registry.mem_file (declaration : Declaration) :
    declaration ∈ (registry.file header aliases).declarations ↔ declaration ∈ registry.declarations :=
  (registry.declarations_file_perm header aliases).mem_iff

theorem Registry.mentions_file (mention : Mention) :
    (registry.file header aliases).Mentions mention ↔
      registry.Mentions mention ∨ mention ∈ aliasMentions aliases := by
  have declared : (∃ declared ∈ (registry.file header aliases).structs,
      ∃ property ∈ declared.properties, mention ∈ property.type.mentions) ↔
        registry.Mentions mention := by
    constructor
    · rintro ⟨declared, member, property, inside, mentions⟩
      refine ⟨.struct declared, (registry.mem_file header aliases _).mp ?_,
        List.mem_flatMap.mpr ⟨property, inside, mentions⟩⟩
      exact List.mem_append_right _ (List.mem_append_right _ (List.mem_map_of_mem member))
    · rintro ⟨declaration, member, mentions⟩
      have there := (registry.mem_file header aliases declaration).mpr member
      cases declaration with
      | struct declared =>
        obtain ⟨property, inside, mentions⟩ := List.mem_flatMap.mp mentions
        simp only [File.declarations, List.mem_append, List.mem_map, Declaration.struct.injEq,
          exists_eq_right, reduceCtorEq, and_false, exists_false, false_or] at there
        exact ⟨declared, there, property, inside, mentions⟩
      | enumeration declared => cases mentions
      | marker declared => cases mentions
  exact or_congr declared List.mem_flatMap.symm

variable {registry}

/-- **A balanced registry becomes a supported file**, where what is open are the names of structs of
their own and what the aliases mention. -/
theorem Registry.Accounts.file {own : List String} {pending : List Mention}
    (accounts : registry.Accounts pending) (distinct : registry.Distinct)
    (holds : registry.HoldsStructs own)
    (account : ∀ mention, mention ∈ pending ↔
      mention ∈ own.map Mention.named ∨ mention ∈ aliasMentions aliases) :
    (registry.file header aliases).Supported own := by
  -- What is provided under no name of its own is mentioned in the file.
  have balance : ∀ mention, mention ∉ own.map Mention.named →
      (registry.Provides mention ↔ (registry.file header aliases).Mentions mention) := by
    intro mention outside
    rw [registry.mentions_file, accounts mention, account mention, or_iff_right outside]
  have declared : ∀ declaration ∈ (registry.file header aliases).declarations,
      registry.Provides declaration.mention := fun declaration member =>
    .inr ⟨declaration, (registry.mem_file header aliases declaration).mp member, rfl⟩
  refine ⟨?_, fun name => ?_, fun enumeration member => ?_, fun struct member outside => ?_⟩
  · rw [← balance .jsonValue (by simp)]
    constructor
    · exact fun flag => .inl ⟨rfl, flag⟩
    · rintro (⟨_, flag⟩ | ⟨declaration, _, same⟩)
      · exact flag
      · cases declaration <;> cases same
  · rw [← balance (.marker name) (by simp)]
    constructor
    · rintro ⟨marker, member, rfl⟩
      exact declared (.marker marker) (List.mem_append_left _ (List.mem_map_of_mem member))
    · rintro (⟨same, _⟩ | ⟨declaration, member, same⟩)
      · cases same
      · have there := (registry.mem_file header aliases declaration).mpr member
        cases declaration with
        | marker declared =>
          cases same
          simp only [File.declarations, List.mem_append, List.mem_map, Declaration.marker.injEq,
            exists_eq_right, reduceCtorEq, and_false, exists_false, or_false] at there
          exact ⟨declared, there, rfl⟩
        | enumeration declared => cases same
        | struct declared => cases same
  · have there : Declaration.enumeration enumeration ∈ (registry.file header aliases).declarations :=
      List.mem_append_right _ (List.mem_append_left _ (List.mem_map_of_mem member))
    refine (balance (.named enumeration.name) fun inside => ?_).mp (declared _ there)
    -- A name of its own is that of a struct.
    obtain ⟨name, listed, same⟩ := List.mem_map.mp inside
    cases same
    obtain ⟨struct, found⟩ := holds _ listed
    have held := (find?_name_eq_some_iff distinct enumeration.name (.enumeration enumeration)).mpr
      ⟨(registry.mem_file header aliases _).mp there, rfl⟩
    cases found.symm.trans held
  · have there : Declaration.struct struct ∈ (registry.file header aliases).declarations :=
      List.mem_append_right _ (List.mem_append_right _ (List.mem_map_of_mem member))
    refine (balance (.named struct.name) fun inside => outside ?_).mp (declared _ there)
    obtain ⟨name, listed, same⟩ := List.mem_map.mp inside
    cases same
    exact listed

end Files

end Swift

open Swift

/-! ### Interfaces -/

namespace Api

/-- The names of the structs for the arguments and the result of a function. -/
def FunctionShape.ownStructs (registry : Registry) (shape : FunctionShape) : List String :=
  let (name, registered) := registry.renderStruct shape.argumentFields (shape.path ++ ["Args"]) .encode
  name :: match shape.resultFields? with
    | some fields => [(registered.renderStruct fields (shape.path ++ ["Return"]) .decode).1]
    | none => []

/-- The names of the structs for the arguments and results of functions. -/
def ownStructs (registry : Registry) : List FunctionShape → List String
  | [] => []
  | shape :: rest => shape.ownStructs registry ++ ownStructs (shape.register registry).2 rest

/-- The types of a function are accounted for: its structs of its own, and its alias. -/
theorem FunctionShape.register_accounts {registry : Registry} {pending : List Mention}
    (accounts : registry.Accounts pending) (shape : FunctionShape) :
    (shape.register registry).2.Accounts (pending ++ ((shape.ownStructs registry).map Mention.named ++
      aliasMentions (shape.register registry).1)) ∧
      (shape.register registry).2.HoldsStructs (shape.ownStructs registry) := by
  have first := accounts.renderStruct shape.argumentFields (shape.path ++ ["Args"]) .encode
  have held := registry.renderStruct_holds shape.argumentFields (shape.path ++ ["Args"]) .encode
  rw [FunctionShape.register, FunctionShape.ownStructs]
  generalize registry.renderStruct shape.argumentFields (shape.path ++ ["Args"]) .encode = rendered
    at first held
  obtain ⟨name, registered⟩ := rendered
  cases shape.resultFields? with
  | some fields =>
    have second := first.renderStruct fields (shape.path ++ ["Return"]) .decode
    have grows := (registered.renderStruct_reads fields (shape.path ++ ["Return"]) .decode).2.1
    refine ⟨?_, (held.grow grows).append (registered.renderStruct_holds _ _ _)⟩
    rw [List.append_assoc] at second
    exact (List.append_nil _).symm ▸ second
  | none =>
    have second := first.render shape.result shape.path .decode
    have grows := (registered.render_reads shape.result shape.path .decode).1
    refine ⟨?_, held.grow grows⟩
    rw [List.append_assoc] at second
    show Registry.Accounts _ (pending ++ ([Mention.named name] ++ (_ ++ [])))
    rw [List.append_nil]
    exact second

theorem registerAll_accounts {registry : Registry} {pending : List Mention}
    (accounts : registry.Accounts pending) (shapes : List FunctionShape) :
    ∃ further, (registerAll registry shapes).2.Accounts (pending ++ further) ∧
      (registerAll registry shapes).2.HoldsStructs (ownStructs registry shapes) ∧
      ∀ mention, mention ∈ further ↔ mention ∈ (ownStructs registry shapes).map Mention.named ∨
        mention ∈ aliasMentions (registerAll registry shapes).1 := by
  induction shapes generalizing registry pending with
  | nil =>
    refine ⟨[], (List.append_nil pending).symm ▸ accounts, fun _ member => ?_, fun mention => ?_⟩
    · cases member
    · exact (or_self_iff (a := mention ∈ [])).symm
  | cons shape rest ih =>
    obtain ⟨first, held⟩ := shape.register_accounts accounts
    obtain ⟨further, second, others, same⟩ := ih first
    rw [List.append_assoc] at second
    refine ⟨_, second, (held.grow ?_).append others, fun mention => ?_⟩
    · exact (registerAll_reads _ rest).1
    · simp only [ownStructs, registerAll, aliasMentions, List.map_append, List.flatMap_append,
        List.mem_append, same]
      tauto

end Api

/-! ### Schemas -/

/-- The names of the structs for the documents of tables. -/
def documentStructs (registry : Registry) : List Table → List String
  | [] => []
  | table :: rest =>
    (registry.renderStruct table.documentFields [table.name, "Document"] .decode).1 ::
      documentStructs (table.register registry) rest

theorem Table.registerAll_accounts {registry : Registry} {pending : List Mention}
    (accounts : registry.Accounts pending) (tables : List Table) :
    (tables.foldl Table.register registry).Accounts
        (pending ++ (documentStructs registry tables).map Mention.named) ∧
      (tables.foldl Table.register registry).HoldsStructs (documentStructs registry tables) := by
  induction tables generalizing registry pending with
  | nil => exact ⟨(List.append_nil pending).symm ▸ accounts, fun _ member => by cases member⟩
  | cons table rest ih =>
    have first := accounts.renderStruct table.documentFields [table.name, "Document"] .decode
    have held := registry.renderStruct_holds table.documentFields [table.name, "Document"] .decode
    obtain ⟨second, others⟩ := ih first
    rw [List.append_assoc] at second
    exact ⟨second, (held.grow (Table.registerAll_reads _ rest).1).append others⟩

/-! ### Generated files -/

/-- **A generated file declares what it mentions.** In the file of an interface and in that of a schema
the value of unknown shape is supported exactly where a property or an alias mentions it, a marker is
declared exactly where one mentions an identifier of its table, and all enumerations are mentioned, as
are all structs but those for arguments, results and documents. -/
theorem bindings_supported :
    (∀ source shapes, (Api.bindings source shapes).Supported (Api.ownStructs .empty shapes)) ∧
      ∀ schema : Schema, schema.bindings.Supported (documentStructs .empty schema.tables) := by
  constructor
  · intro source shapes
    obtain ⟨further, accounts, holds, account⟩ :=
      Api.registerAll_accounts Registry.accounts_empty shapes
    have distinct := (Api.registerAll_reads .empty shapes).1.distinct Registry.distinct_empty
    exact accounts.file _ _ distinct holds account
  · intro schema
    obtain ⟨accounts, holds⟩ :=
      Table.registerAll_accounts Registry.accounts_empty schema.tables
    have distinct := (Table.registerAll_reads .empty schema.tables).1.distinct Registry.distinct_empty
    exact accounts.file _ _ distinct holds fun mention => (or_iff_left List.not_mem_nil).symm

end SwiftBindings
