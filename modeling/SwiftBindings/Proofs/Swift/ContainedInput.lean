/-
**Which inputs stay inside comments.**

The generated file of a schema or of an interface is contained where its header and its markers break no
line (`File.isContained_iff`). The header has the source, and the names of the tables or the paths of the
functions. The markers have the tables that identifiers refer to, at any depth, and those alone: rendering
registers a marker for each of them and no other (`Registry.MarksTables`).

**The main statement.** `bindings_contained_iff`: the generated files of a schema and of an interface are
contained exactly where no line break stands in the source, in a listed name or path, or in a table that
an identifier refers to. `bindings_leave_comment` has a table whose name has one: behind the break its
name is code.
-/

import SwiftBindings.Proofs.Swift.ContainedText
import SwiftBindings.Proofs.Swift.Mentions

namespace SwiftBindings

namespace Swift

/-! ### Tables that rendering marks -/

mutual

/-- The tables that the identifiers of a shape refer to. -/
def shapeTables : Shape → List String
  | .id (some table) => [table]
  | .array ⟨shape, _, _⟩ => shapeTables shape
  | .record _ ⟨shape, _, _⟩ => shapeTables shape
  | .object fields => fieldTables fields
  | .string | .number | .boolean | .id none | .enumeration _ | .any | .unknown _ _ => []

/-- The tables that the identifiers of fields refer to. -/
def fieldTables : List Field → List String
  | [] => []
  | ⟨_, _, _, ⟨shape, _, _⟩⟩ :: rest => shapeTables shape ++ fieldTables rest

end

/-- The registry has markers of these tables and of no others. -/
def Registry.MarksTables (registry : Registry) (tables : List String) : Prop :=
  ∀ table, (∃ name, .marker ⟨name, table⟩ ∈ registry.declarations) ↔ table ∈ tables

theorem Registry.marksTables_empty : Registry.empty.MarksTables [] := by
  intro table
  constructor
  · rintro ⟨name, none⟩
    cases none
  · intro none
    cases none

/-- The table that a declaration marks. -/
def Declaration.tables : Declaration → List String
  | .marker declared => [declared.table]
  | .struct _ | .enumeration _ => []

/-- Registering a declaration marks its table, under whatever name. -/
theorem Registry.MarksTables.register {registry : Registry} {tables : List String}
    (marks : registry.MarksTables tables) (declaration : Declaration) :
    (registry.register declaration).2.MarksTables (tables ++ declaration.tables) := by
  obtain ⟨attempt, admitted, same⟩ := registry.register_eq declaration
  intro table
  rw [same, List.mem_append, ← marks table]
  simp only [Registry.mem_insert admitted, exists_or]
  refine or_congr_right ?_
  cases declaration with
  | marker declared => simp [Declaration.rename, Declaration.tables]
  | struct declared => simp [Declaration.rename, Declaration.tables]
  | enumeration declared => simp [Declaration.rename, Declaration.tables]

mutual

/-- **Rendering a shape marks its tables.** -/
theorem Registry.MarksTables.renderShape (path : List String) (side : Side) {registry : Registry}
    {tables : List String} (marks : registry.MarksTables tables) : ∀ shape : Shape,
      (registry.renderShape path side shape).2.MarksTables (tables ++ shapeTables shape)
  | .string | .number | .boolean | .id none => by
    rw [shapeTables, List.append_nil]
    exact marks
  | .id (some table) => by
    rw [Registry.renderShape, shapeTables]
    exact marks.register (.marker ⟨typeName [table] ++ "Table", table⟩)
  | .array ⟨shape, _, _⟩ => by
    rw [Registry.renderShape, shapeTables]
    exact Registry.MarksTables.renderShape (path ++ ["Item"]) side marks shape
  | .record _ ⟨shape, _, _⟩ => by
    rw [Registry.renderShape, shapeTables]
    exact Registry.MarksTables.renderShape (path ++ ["Value"]) side marks shape
  | .object fields => by
    have inner := Registry.MarksTables.renderProperties path side generatedMembers marks fields
    rw [Registry.renderShape, shapeTables, ← List.append_nil (tables ++ fieldTables fields)]
    exact inner.register (.struct ⟨typeName path, side, _⟩)
  | .enumeration values => by
    rw [Registry.renderShape, shapeTables]
    exact marks.register (.enumeration ⟨typeName path ++ "Enum", Case.ofValues values⟩)
  | .any | .unknown _ _ => by
    rw [shapeTables, List.append_nil]
    cases side <;> exact marks

/-- Rendering fields marks their tables. -/
theorem Registry.MarksTables.renderProperties (path : List String) (side : Side)
    (taken : List String) {registry : Registry} {tables : List String}
    (marks : registry.MarksTables tables) : ∀ fields : List Field,
      (registry.renderProperties path side taken fields).2.MarksTables (tables ++ fieldTables fields)
  | [] => by
    rw [fieldTables, List.append_nil]
    exact marks
  | ⟨name, _, _, ⟨shape, _, _⟩⟩ :: rest => by
    rw [Registry.renderProperties, fieldTables, ← List.append_assoc]
    exact Registry.MarksTables.renderProperties path side _
      (Registry.MarksTables.renderShape (path ++ [name]) side marks shape) rest

end

/-- The tables that a request marks. -/
def Request.tables : Request → List String
  | .type validator _ _ => shapeTables validator.shape
  | .struct fields _ _ => fieldTables fields

/-- **A run marks the tables of its requests.** -/
theorem Registry.MarksTables.answers {registry : Registry} {tables : List String}
    (marks : registry.MarksTables tables) (requests : List Request) :
    (registry.answers requests).2.MarksTables (tables ++ requests.flatMap Request.tables) := by
  induction requests generalizing registry tables with
  | nil =>
    rw [List.flatMap_nil, List.append_nil]
    exact marks
  | cons request rest ih =>
    rw [List.flatMap_cons, ← List.append_assoc]
    refine ih ?_
    cases request with
    | type validator path side => exact marks.renderShape path side validator.shape
    | struct fields path side =>
      rw [← List.append_nil (tables ++ _)]
      exact (marks.renderProperties path side generatedMembers fields).register
        (.struct ⟨typeName path, side, _⟩)

/-! ### Names of a file -/

section Names

variable {registry : Registry} (made : registry.AllMade)

include made

theorem Registry.AllMade.isSpelled_name {declaration : Declaration}
    (member : declaration ∈ registry.declarations) : IsSpelled declaration.name :=
  ⟨_, (made declaration member).isCapitalName.plain, .inl rfl⟩

/-- What is provided has the name of a declaration, if it has a name. -/
theorem Registry.AllMade.isSpelled_of_provides {mention : Mention} (provides : registry.Provides mention) :
    ∀ name ∈ mention.names, IsSpelled name := by
  rcases provides with ⟨rfl, _⟩ | ⟨declaration, member, rfl⟩
  · exact fun name none => absurd none List.not_mem_nil
  · have spelled := made.isSpelled_name member
    cases declaration <;> exact List.forall_mem_singleton.mpr spelled

/-- **All names of a file are identifiers**, in backticks or without, where its registry provides what
its aliases mention. -/
theorem Registry.AllMade.isSpelled_file {pending : List Mention} (accounts : registry.Accounts pending)
    (header : List String) {aliases : List Alias} (opened : ∀ mention ∈ aliasMentions aliases, mention ∈ pending)
    (others : ∀ other ∈ aliases, IsSpelled other.name) :
    ∀ name ∈ (registry.file header aliases).names, IsSpelled name := by
  -- What is mentioned is provided.
  have mentioned : ∀ mention, (registry.file header aliases).Mentions mention →
      ∀ name ∈ mention.names, IsSpelled name := by
    intro mention mentions
    refine made.isSpelled_of_provides ((accounts mention).mpr ?_)
    exact ((registry.mentions_file header aliases mention).mp mentions).imp_right (opened mention)
  have typed : ∀ {type : SwiftType}, (∀ mention ∈ type.mentions,
      (registry.file header aliases).Mentions mention) → ∀ name ∈ type.names, IsSpelled name := by
    intro type inside name member
    obtain ⟨mention, held, here⟩ := List.mem_flatMap.mp member
    exact mentioned mention (inside mention held) name here
  intro name member
  rcases List.mem_append.mp member with member | member
  · obtain ⟨declaration, inside, here⟩ := List.mem_flatMap.mp member
    have registered := (registry.mem_file header aliases declaration).mp inside
    rcases List.mem_cons.mp here with rfl | here
    · exact made.isSpelled_name registered
    · rcases List.mem_append.mp here with here | here
      · obtain ⟨word, text, plain, named⟩ := (made declaration registered).exists_namedAfter here
        exact named.isSpelled plain
      · obtain ⟨mention, held, here⟩ := List.mem_flatMap.mp here
        refine mentioned mention ((registry.mentions_file header aliases mention).mpr ?_) name here
        exact .inl ⟨declaration, registered, held⟩
  · obtain ⟨other, inside, here⟩ := List.mem_flatMap.mp member
    rcases List.mem_cons.mp here with rfl | here
    · exact others other inside
    · exact typed (fun mention held => .inr ⟨other, inside, held⟩) name here

end Names

/-! ### Contained files -/

/-- The markers of a file are those of its registry. -/
theorem Registry.mem_markers_file (registry : Registry) (header : List String) (aliases : List Alias)
    (marker : Marker) : marker ∈ (registry.file header aliases).markers ↔
      .marker marker ∈ registry.declarations := by
  rw [← registry.mem_file header aliases]
  simp [File.declarations]

/-- **The file of a run is contained** where its header and the tables of its requests break no line. -/
theorem Registry.isContained_file_iff (requests : List Request) (header : List String)
    {aliases : List Alias}
    (named : ∀ name ∈ ((Registry.empty.answers requests).2.file header aliases).names, IsSpelled name) :
    ((Registry.empty.answers requests).2.file header aliases).IsContained ↔
      (∀ line ∈ header, IsSingleLine line) ∧
        ∀ table ∈ requests.flatMap Request.tables, IsSingleLine table := by
  have marks := Registry.marksTables_empty.answers requests
  rw [File.isContained_iff named]
  refine and_congr_right fun _ => ⟨fun single table member => ?_, fun single marker member => ?_⟩
  · obtain ⟨name, registered⟩ := (marks table).mpr member
    exact single ⟨name, table⟩ ((Registry.mem_markers_file _ header aliases _).mpr registered)
  · exact single _ ((marks marker.table).mp
      ⟨marker.name, (Registry.mem_markers_file _ header aliases marker).mp member⟩)

theorem Registry.answers_append (registry : Registry) (first second : List Request) :
    (registry.answers (first ++ second)).2 = ((registry.answers first).2.answers second).2 := by
  induction first generalizing registry with
  | nil => rfl
  | cons request rest ih => exact ih (registry.answer request).2

end Swift

open Swift

/-- The header breaks no line where its parts do not. -/
theorem isSingleLine_generatedHeader {source title : String} {entries : List String}
    (single : IsSingleLine title) :
    (∀ line ∈ generatedHeader source title entries, IsSingleLine line) ↔
      IsSingleLine source ∧ ∀ entry ∈ entries, IsSingleLine entry := by
  have opening : IsSingleLine ("Generated by typebridge from " ++ source ++ ". Do not edit.") ↔
      IsSingleLine source := by
    rw [isSingleLine_append, isSingleLine_append]
    exact ⟨fun whole => whole.1.2, fun inner => ⟨⟨by decide, inner⟩, by decide⟩⟩
  have margin : ∀ entry, IsSingleLine ("  " ++ entry) ↔ IsSingleLine entry :=
    fun entry => isSingleLine_append.trans (and_iff_right (by decide))
  rw [generatedHeader, List.forall_mem_append, List.forall_mem_map]
  simp only [List.forall_mem_cons, opening, margin, single]
  have empty : IsSingleLine "" := by decide
  simp [empty]

/-! ### The tables of a schema -/

/-- The struct that a table asks for. -/
def Table.request (table : Table) : Request :=
  .struct table.documentFields [table.name, "Document"] .decode

theorem Table.registerAll_eq (registry : Registry) (tables : List Table) :
    tables.foldl Table.register registry = (registry.answers (tables.map Table.request)).2 := by
  induction tables generalizing registry with
  | nil => rfl
  | cons table rest ih => exact ih (table.register registry)

/-- The names of a generated schema are identifiers. -/
theorem Schema.isSpelled_bindings (schema : Schema) :
    ∀ name ∈ schema.bindings.names, IsSpelled name := by
  have made := Registry.allMade_answers (schema.tables.map Table.request)
  rw [← Table.registerAll_eq] at made
  have accounts := (Table.registerAll_accounts Registry.accounts_empty schema.tables).1
  exact made.isSpelled_file accounts _ (fun _ none => absurd none List.not_mem_nil)
    fun _ none => absurd none List.not_mem_nil

theorem Schema.isContained_bindings_iff (schema : Schema) : schema.bindings.IsContained ↔
    IsSingleLine schema.source ∧ ∀ table ∈ schema.tables,
      IsSingleLine table.name ∧ ∀ name ∈ fieldTables table.documentFields, IsSingleLine name := by
  have named := schema.isSpelled_bindings
  rw [Schema.bindings, Table.registerAll_eq] at named ⊢
  rw [Registry.isContained_file_iff _ _ named, isSingleLine_generatedHeader (by decide)]
  simp only [List.forall_mem_map, List.forall_mem_flatMap, Table.request, Request.tables, and_assoc,
    forall_and]

/-! ### The functions of an interface -/

namespace Api

/-- The types that a function asks for. -/
def FunctionShape.requests (shape : FunctionShape) : List Request :=
  [.struct shape.argumentFields (shape.path ++ ["Args"]) .encode,
    match shape.resultFields? with
    | some fields => .struct fields (shape.path ++ ["Return"]) .decode
    | none => .type shape.result shape.path .decode]

theorem registerAll_eq (registry : Registry) (shapes : List FunctionShape) :
    (registerAll registry shapes).2 = (registry.answers (shapes.flatMap FunctionShape.requests)).2 := by
  induction shapes generalizing registry with
  | nil => rfl
  | cons shape rest ih =>
    have first : (shape.register registry).2 = (registry.answers shape.requests).2 := by
      rw [FunctionShape.register, FunctionShape.requests]
      cases shape.resultFields? <;> rfl
    rw [List.flatMap_cons, Registry.answers_append, ← first]
    exact ih (shape.register registry).2

/-- The tables that the types of a function refer to. -/
def FunctionShape.tables (shape : FunctionShape) : List String :=
  fieldTables shape.argumentFields ++ shapeTables shape.result.shape

theorem FunctionShape.shape_of_resultFields? (shape : FunctionShape) {fields : List Field}
    (present : shape.resultFields? = some fields) : shape.result.shape = .object fields := by
  rw [FunctionShape.resultFields?] at present
  split at present
  · rename_i object
    split at present
    · cases present
    · cases present
      exact object
  · cases present

theorem FunctionShape.tables_eq (shape : FunctionShape) :
    shape.requests.flatMap Request.tables = shape.tables := by
  have result : Request.tables (match shape.resultFields? with
      | some fields => .struct fields (shape.path ++ ["Return"]) .decode
      | none => .type shape.result shape.path .decode) = shapeTables shape.result.shape := by
    cases present : shape.resultFields? with
    | none => rfl
    | some fields =>
      rw [shape.shape_of_resultFields? present, shapeTables]
      rfl
  rw [FunctionShape.requests, List.flatMap_cons, List.flatMap_singleton, result]
  rfl

/-- The names of a generated interface are identifiers. -/
theorem isSpelled_bindings (source : String) (shapes : List FunctionShape) :
    ∀ name ∈ (bindings source shapes).names, IsSpelled name := by
  have made := Registry.allMade_answers (shapes.flatMap FunctionShape.requests)
  rw [← registerAll_eq] at made
  obtain ⟨further, accounts, _, account⟩ := registerAll_accounts Registry.accounts_empty shapes
  refine made.isSpelled_file accounts _ (fun mention inside => (account mention).mpr (.inr inside)) ?_
  intro other member
  have names := (registerAll_declares Registry.declares_empty shapes).1
  have inside : other.name ∈ shapes.flatMap FunctionShape.aliasNames :=
    names ▸ List.mem_map_of_mem member
  obtain ⟨shape, _, held⟩ := List.mem_flatMap.mp inside
  rw [FunctionShape.aliasNames] at held
  split at held
  · cases held
  · rw [List.mem_singleton.mp held]
    exact ⟨_, (isCapitalName_typeName _).plain, .inl rfl⟩

theorem isContained_bindings_iff (source : String) (shapes : List FunctionShape) :
    (bindings source shapes).IsContained ↔ IsSingleLine source ∧ ∀ shape ∈ shapes,
      IsSingleLine shape.function.qualified ∧ ∀ name ∈ shape.tables, IsSingleLine name := by
  have named := isSpelled_bindings source shapes
  have entry : ∀ shape : FunctionShape,
      IsSingleLine (shape.function.kind.text ++ " " ++ shape.function.qualified) ↔
        IsSingleLine shape.function.qualified := by
    intro shape
    have kind : IsSingleLine (shape.function.kind.text ++ " ") := by
      cases shape.function.kind <;> decide
    exact isSingleLine_append.trans (and_iff_right kind)
  dsimp only [bindings] at named ⊢
  rw [registerAll_eq] at named ⊢
  rw [Registry.isContained_file_iff _ _ named, isSingleLine_generatedHeader (by decide)]
  simp only [List.forall_mem_map, List.forall_mem_flatMap, List.flatMap_assoc, FunctionShape.tables_eq,
    entry, and_assoc, forall_and]

end Api

/-! ### Contained text -/

/-- **Text from outside stays inside comments, literals and identifiers exactly where it breaks no line
of a comment.** Keys of properties and values of cases never leave their literals and names are always
identifiers, but the generated file of a schema is contained only where no line break stands in its
source, in the name of a table, or in a table that an identifier of its documents refers to; that of an
interface, where none stands in its source, in the path of a function, or in a table that an identifier of
its arguments or its result refers to. -/
theorem bindings_contained_iff (schema : Schema) (source : String) (shapes : List Api.FunctionShape) :
    (schema.bindings.IsContained ↔
      IsSingleLine schema.source ∧ ∀ table ∈ schema.tables,
        IsSingleLine table.name ∧ ∀ name ∈ fieldTables table.documentFields, IsSingleLine name) ∧
    ((Api.bindings source shapes).IsContained ↔
      IsSingleLine source ∧ ∀ shape ∈ shapes,
        IsSingleLine shape.function.qualified ∧ ∀ name ∈ shape.tables, IsSingleLine name) :=
  ⟨schema.isContained_bindings_iff, Api.isContained_bindings_iff source shapes⟩

/-- **A table or a function with a line break in its name leaves the comment** that lists it. -/
theorem bindings_leave_comment :
    (¬ ∀ schema : Schema, schema.bindings.IsContained) ∧
      ¬ ∀ (source : String) (shapes : List Api.FunctionShape), (Api.bindings source shapes).IsContained := by
  have broken : ¬IsSingleLine "a\nb" := by decide
  constructor
  · intro always
    have contained := (Schema.isContained_bindings_iff _).mp (always ⟨"", [⟨"a\nb", [], []⟩]⟩)
    exact broken (contained.2 _ (List.mem_singleton_self _)).1
  · intro always
    have contained := (Api.isContained_bindings_iff _ _).mp
      (always "" [queryAt ["a\nb"] (.ofShape .number)])
    have qualified := (contained.2 _ (List.mem_singleton_self _)).1
    revert qualified
    decide

end SwiftBindings
