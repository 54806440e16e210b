/-
**The names that a generated file declares.**

A file declares the fixed names of its support code, one name for every registered declaration and
one for every other name of a result type. The registry keeps its own names apart, with a number
behind a name that is taken. So among the names that end in no digit it holds exactly those that
derive from the paths of what was rendered (`Registry.Declares`); whatever asks for such a name a
second time shares it or takes a numbered one.

The other names of result types, and the names of the support code, do not go through the registry,
and none of them ends in a digit. Whether they meet a declared name is thus read off the paths.

**The main statement.** `declaredNames_distinct_iff`: a schema never declares a name twice; an
interface does not exactly where the other names of its result types differ from each other and, like
the names of the support code, from all derived names. `bindings_repeats_alias` has two functions of
which the first condition fails.
-/

import SwiftBindings.Proofs.Swift.GeneratedFile

namespace SwiftBindings

namespace Swift

/-! ### The names of a file -/

/-- The names of the support code's types. -/
def File.supportNames (file : File) : List String :=
  "ConvexId" :: if file.usesJsonValue then ["JSONValue"] else []

/-- The names of the generated types. -/
def File.declaredNames (file : File) : List String :=
  file.declarations.map Declaration.name ++ file.aliases.map Alias.name

/-- No name is declared twice. -/
def File.HasDistinctNames (file : File) : Prop :=
  (file.supportNames ++ file.declaredNames).Nodup

instance (file : File) : Decidable file.HasDistinctNames :=
  inferInstanceAs (Decidable (List.Nodup _))

theorem File.nodup_supportNames (file : File) : file.supportNames.Nodup := by
  rw [File.supportNames]
  split <;> decide

/-- A file of a registry without repeated names repeats none exactly where its aliases repeat none and
neither they nor the names of the support code are names of the registry. -/
theorem Registry.hasDistinctNames_file_iff {registry : Registry} (distinct : registry.Distinct)
    (header : List String) {aliases : List Alias}
    (apart : ∀ name ∈ (registry.file header aliases).supportNames, name ∉ aliases.map Alias.name) :
    (registry.file header aliases).HasDistinctNames ↔
      (aliases.map Alias.name).Nodup ∧
        ∀ name ∈ (registry.file header aliases).supportNames ++ aliases.map Alias.name,
          name ∉ registry.declarations.map Declaration.name := by
  have same := (registry.declarations_file_perm header aliases).map Declaration.name
  have kept := same.nodup_iff.mpr distinct
  have support := (registry.file header aliases).nodup_supportNames
  have others : (registry.file header aliases).aliases = aliases := rfl
  rw [File.HasDistinctNames, File.declaredNames, others]
  simp only [List.nodup_append, List.mem_append, same.mem_iff]
  constructor
  · rintro ⟨_, ⟨_, once, between⟩, support⟩
    refine ⟨once, fun name member declared => ?_⟩
    rcases member with member | member
    · exact support name member name (.inl declared) rfl
    · exact between name declared name member rfl
  · rintro ⟨once, free⟩
    refine ⟨support, ⟨kept, once, ?_⟩, ?_⟩
    · rintro name declared other member rfl
      exact free name (.inr member) declared
    · rintro name member other (declared | declared) rfl
      · exact free name (.inl member) declared
      · exact apart name member declared

/-! ### Names that end in digits -/

/-- The last character is a digit. -/
def EndsInDigit (name : String) : Prop :=
  ∃ last, name.toList.getLast? = some last ∧ last.isDigit = true

/-- A text ends as each of its endings does. -/
theorem getLast?_of_suffix {α : Type} {ending whole : List α} (suffix : ending <:+ whole)
    (present : ending ≠ []) : whole.getLast? = ending.getLast? := by
  obtain ⟨front, rfl⟩ := suffix
  exact List.getLast?_append_of_ne_nil front present

/-- Every name that is tried but the first ends in a digit. -/
theorem endsInDigit_candidateName (base : String) {attempt : Nat} (numbered : attempt ≠ 0) :
    EndsInDigit (candidateName base attempt) := by
  have digits : (candidateName base attempt).toList =
      base.toList ++ Nat.toDigits 10 (attempt + 1) := by
    rw [candidateName, if_neg numbered, String.toList_append]
    exact congrArg (base.toList ++ ·) Nat.toList_repr
  have present : Nat.toDigits 10 (attempt + 1) ≠ [] := Nat.toDigits_ne_nil
  refine ⟨_, ?_, Nat.isDigit_of_mem_toDigits (by decide) (by decide) (List.getLast_mem present)⟩
  rw [digits, List.getLast?_append_of_ne_nil _ present, List.getLast?_eq_some_getLast present]

/-! ### What a registry declares -/

/-- Of the names without a digit at the end, the registry holds the listed ones. -/
def Registry.Declares (registry : Registry) (names : List String) : Prop :=
  ∀ name, ¬EndsInDigit name →
    (name ∈ registry.declarations.map Declaration.name ↔ name ∈ names)

theorem Registry.declares_empty : Registry.empty.Declares [] :=
  fun _ _ => Iff.rfl

/-- Inserting a declaration adds its name. -/
theorem Registry.mem_names_insert (registry : Registry) (declaration : Declaration) (name : String) :
    name ∈ (registry.insert declaration).declarations.map Declaration.name ↔
      name ∈ registry.declarations.map Declaration.name ∨ name = declaration.name := by
  rw [Registry.insert]
  cases held : registry.find? declaration.name with
  | none => simp only [List.map_append, List.map_singleton, List.mem_append, List.mem_singleton]
  | some existing =>
    have declared : declaration.name ∈ registry.declarations.map Declaration.name := by
      by_contra missing
      rw [(registry.find?_eq_none_iff _).mpr missing] at held
      cases held
    constructor
    · exact .inl
    · rintro (member | rfl)
      · exact member
      · exact declared

/-- A declaration that its own name admits is registered under it. -/
theorem Registry.register_of_admits {registry : Registry} {declaration : Declaration}
    (admitted : registry.admits declaration = true) :
    registry.register declaration = (declaration.name, registry.insert declaration) := by
  have first : declaration.rename (candidateName declaration.name 0) = declaration :=
    Declaration.rename_name declaration
  simp only [Registry.register, List.range_succ_eq_map, List.map_cons, first,
    List.find?_cons_of_pos admitted]

/-- **Registering adds the derived name.** Either the name was free, or it is held already and the
declaration goes under it or under a numbered one. -/
theorem Registry.Declares.register {registry : Registry} {names : List String}
    (declares : registry.Declares names) (declaration : Declaration) :
    (registry.register declaration).2.Declares (names ++ [declaration.name]) := by
  intro name plain
  rw [List.mem_append, List.mem_singleton, ← declares name plain]
  by_cases admitted : registry.admits declaration = true
  · rw [Registry.register_of_admits admitted]
    exact registry.mem_names_insert declaration name
  · obtain ⟨attempt, renamed, same⟩ := registry.register_eq declaration
    have numbered : attempt ≠ 0 := by
      rintro rfl
      exact admitted ((congrArg registry.admits (Declaration.rename_name declaration)).symm.trans
        renamed)
    have held : declaration.name ∈ registry.declarations.map Declaration.name := by
      by_contra free
      rw [Registry.admits, (registry.find?_eq_none_iff _).mpr free] at admitted
      exact admitted rfl
    rw [same]
    show name ∈ (registry.insert _).declarations.map Declaration.name ↔ _
    rw [Registry.mem_names_insert, Declaration.name_rename]
    constructor
    · rintro (member | rfl)
      · exact .inl member
      · exact absurd (endsInDigit_candidateName declaration.name numbered) plain
    · rintro (member | rfl)
      · exact .inl member
      · exact .inl held

/-! ### Names that rendering derives -/

mutual

/-- The names that derive from a path for the declarations of a shape. -/
def shapeTypeNames (path : List String) : Shape → List String
  | .id (some table) => [typeName [table] ++ "Table"]
  | .array ⟨shape, _, _⟩ => shapeTypeNames (path ++ ["Item"]) shape
  | .record _ ⟨shape, _, _⟩ => shapeTypeNames (path ++ ["Value"]) shape
  | .object fields => fieldTypeNames path fields ++ [typeName path]
  | .enumeration _ => [typeName path ++ "Enum"]
  | .string | .number | .boolean | .id none | .any | .unknown _ _ => []

/-- The names that derive from a path for the declarations of fields. -/
def fieldTypeNames (path : List String) : List Field → List String
  | [] => []
  | ⟨name, _, _, ⟨shape, _, _⟩⟩ :: rest =>
    shapeTypeNames (path ++ [name]) shape ++ fieldTypeNames path rest

end

/-- The names that derive from a path for a struct and the declarations of its fields. -/
def structTypeNames (path : List String) (fields : List Field) : List String :=
  fieldTypeNames path fields ++ [typeName path]

mutual

/-- **Rendering a shape declares what derives from its path.** -/
theorem Registry.Declares.renderShape (path : List String) (side : Side) {registry : Registry}
    {names : List String} (declares : registry.Declares names) :
    ∀ shape : Shape, (registry.renderShape path side shape).2.Declares
      (names ++ shapeTypeNames path shape)
  | .string | .number | .boolean | .id none => by
    rw [shapeTypeNames, List.append_nil]
    exact declares
  | .id (some table) => by
    rw [Registry.renderShape, shapeTypeNames]
    generalize typeName [table] ++ "Table" = name
    exact declares.register (.marker ⟨name, table⟩)
  | .array ⟨shape, _, _⟩ => by
    rw [Registry.renderShape, shapeTypeNames]
    exact Registry.Declares.renderShape (path ++ ["Item"]) side declares shape
  | .record _ ⟨shape, _, _⟩ => by
    rw [Registry.renderShape, shapeTypeNames]
    exact Registry.Declares.renderShape (path ++ ["Value"]) side declares shape
  | .object fields => by
    have inner := Registry.Declares.renderProperties path side generatedMembers declares fields
    rw [Registry.renderShape, shapeTypeNames, ← List.append_assoc]
    generalize typeName path = name
    exact inner.register (.struct ⟨name, side, _⟩)
  | .enumeration values => by
    rw [Registry.renderShape, shapeTypeNames]
    generalize typeName path ++ "Enum" = name
    exact declares.register (.enumeration ⟨name, Case.ofValues values⟩)
  | .any | .unknown _ _ => by
    rw [shapeTypeNames, List.append_nil]
    cases side <;> exact declares

/-- Rendering fields declares what derives from their path. -/
theorem Registry.Declares.renderProperties (path : List String) (side : Side)
    (taken : List String) {registry : Registry} {names : List String}
    (declares : registry.Declares names) :
    ∀ fields : List Field, (registry.renderProperties path side taken fields).2.Declares
      (names ++ fieldTypeNames path fields)
  | [] => by
    rw [fieldTypeNames, List.append_nil]
    exact declares
  | ⟨name, _, _, ⟨shape, _, _⟩⟩ :: rest => by
    rw [Registry.renderProperties, fieldTypeNames, ← List.append_assoc]
    exact Registry.Declares.renderProperties path side _
      (Registry.Declares.renderShape (path ++ [name]) side declares shape) rest

end

/-- Rendering a struct declares what derives from its path. -/
theorem Registry.Declares.renderStruct {registry : Registry} {names : List String}
    (declares : registry.Declares names) (fields : List Field) (path : List String) (side : Side) :
    (registry.renderStruct fields path side).2.Declares (names ++ structTypeNames path fields) := by
  have inner := declares.renderProperties path side generatedMembers fields
  rw [Registry.renderStruct, structTypeNames, ← List.append_assoc]
  generalize typeName path = name
  exact inner.register (.struct ⟨name, side, _⟩)

/-! ### Names of paths -/

theorem words_append_underscore (first second : List Char) :
    words (first ++ '_' :: second) = words first ++ words second := by
  rw [words, List.splitOnP_append_cons first second (by decide), List.filter_append]
  rfl

/-- The letters of a path's name: those of its segments, in turn. -/
def pathLetters (path : List String) : List Char :=
  path.flatMap fun segment => (words segment.toList).flatMap capitalizeChars

theorem pascalCase_intercalate (path : List String) :
    pascalCase ("_".intercalate path) = String.ofList (pathLetters path) := by
  have letters : ∀ path : List String,
      (words ("_".intercalate path).toList).flatMap capitalizeChars = pathLetters path := by
    intro path
    induction path with
    | nil => rfl
    | cons segment rest ih =>
      cases rest with
      | nil => simp [pathLetters]
      | cons next rest =>
        have text : ("_".intercalate (segment :: next :: rest)).toList =
            segment.toList ++ '_' :: ("_".intercalate (next :: rest)).toList := by
          rw [String.intercalate_cons_cons, String.toList_append, String.toList_append,
            List.append_assoc]
          rfl
        rw [text, words_append_underscore, List.flatMap_append, ih, pathLetters, pathLetters]
        rfl
  rw [pascalCase, letters]

theorem suffix_guardDigit (chars : List Char) : chars <:+ guardDigit chars := by
  cases chars with
  | nil => exact List.suffix_refl _
  | cons first rest =>
    rw [guardDigit]
    split
    · exact List.suffix_cons _ _
    · exact List.suffix_refl _

/-- **A type name ends in the letters of its path.** -/
theorem pathLetters_suffix_typeName (path : List String) :
    pathLetters path <:+ (typeName path).toList := by
  simp only [typeName, pascalCase_intercalate, String.toList_ofList]
  split
  · rename_i none
    have empty : pathLetters path = [] := by simpa using none
    rw [empty]
    exact List.nil_suffix
  · rw [String.toList_ofList]
    exact suffix_guardDigit _

/-- The name of a path ends as the name of its last segment does. -/
theorem getLast?_typeName (path : List String) {segment : String}
    (worded : pathLetters [segment] ≠ []) :
    (typeName (path ++ [segment])).toList.getLast? = (pathLetters [segment]).getLast? := by
  refine getLast?_of_suffix (.trans ?_ (pathLetters_suffix_typeName _)) worded
  rw [pathLetters, pathLetters, List.flatMap_append]
  exact List.suffix_append _ _

/-- The letters of every segment are in the name of its path. -/
theorem mem_typeName {path : List String} {segment : String} (inside : segment ∈ path)
    {letter : Char} (member : letter ∈ pathLetters [segment]) :
    letter ∈ (typeName path).toList := by
  refine (pathLetters_suffix_typeName path).subset (List.mem_flatMap.mpr ⟨segment, inside, ?_⟩)
  simpa [pathLetters] using member

end Swift

open Swift

/-! ### The tables of a schema -/

/-- The names that derive from a table for its documents. -/
def Table.typeNames (table : Table) : List String :=
  structTypeNames [table.name, "Document"] table.documentFields

theorem Table.registerAll_declares {registry : Registry} {names : List String}
    (declares : registry.Declares names) (tables : List Table) :
    (tables.foldl Table.register registry).Declares (names ++ tables.flatMap Table.typeNames) := by
  induction tables generalizing registry names with
  | nil =>
    rw [List.flatMap_nil, List.append_nil]
    exact declares
  | cons table rest ih =>
    rw [List.flatMap_cons, ← List.append_assoc]
    exact ih (declares.renderStruct _ _ _)

/-- One of the letters that mark the names of a schema: those of documents have the first, those of
table markers the second. -/
def HasSchemaLetter (name : String) : Prop := 'D' ∈ name.toList ∨ 'T' ∈ name.toList

theorem hasSchemaLetter_typeName {path : List String} (inside : "Document" ∈ path) :
    HasSchemaLetter (typeName path) :=
  .inl (mem_typeName inside (by decide))

theorem HasSchemaLetter.append {name : String} (letter : HasSchemaLetter name) (ending : String) :
    HasSchemaLetter (name ++ ending) := by
  rw [HasSchemaLetter, String.toList_append]
  exact letter.imp (List.mem_append_left _) (List.mem_append_left _)

mutual

/-- What derives from the path of a document has a letter of a schema. -/
theorem hasSchemaLetter_shape {path : List String} (inside : "Document" ∈ path) :
    ∀ shape : Shape, ∀ name ∈ shapeTypeNames path shape, HasSchemaLetter name
  | .string | .number | .boolean | .id none | .any | .unknown _ _ => by
    intro name member
    rw [shapeTypeNames] at member
    cases member
  | .id (some table) => by
    intro name member
    rw [shapeTypeNames, List.mem_singleton] at member
    refine .inr ?_
    rw [member, String.toList_append]
    exact List.mem_append_right _ (by decide)
  | .array ⟨shape, _, _⟩ => by
    rw [shapeTypeNames]
    exact hasSchemaLetter_shape (List.mem_append_left _ inside) shape
  | .record _ ⟨shape, _, _⟩ => by
    rw [shapeTypeNames]
    exact hasSchemaLetter_shape (List.mem_append_left _ inside) shape
  | .object fields => by
    intro name member
    rw [shapeTypeNames, List.mem_append, List.mem_singleton] at member
    rcases member with member | member
    · exact hasSchemaLetter_fields inside fields name member
    · rw [member]
      exact hasSchemaLetter_typeName inside
  | .enumeration _ => by
    intro name member
    rw [shapeTypeNames, List.mem_singleton] at member
    rw [member]
    exact (hasSchemaLetter_typeName inside).append "Enum"

theorem hasSchemaLetter_fields {path : List String} (inside : "Document" ∈ path) :
    ∀ fields : List Field, ∀ name ∈ fieldTypeNames path fields, HasSchemaLetter name
  | [] => by
    intro name member
    rw [fieldTypeNames] at member
    cases member
  | ⟨_, _, _, ⟨shape, _, _⟩⟩ :: rest => by
    intro name member
    rw [fieldTypeNames, List.mem_append] at member
    rcases member with member | member
    · exact hasSchemaLetter_shape (List.mem_append_left _ inside) shape name member
    · exact hasSchemaLetter_fields inside rest name member

end

/-- The names of the support code have no letter of a schema and end in no digit. -/
theorem supportNames_apart (file : File) {name : String} (member : name ∈ file.supportNames) :
    ¬HasSchemaLetter name ∧ ¬EndsInDigit name ∧ name.toList.getLast? ≠ some 'n' := by
  have known : name = "ConvexId" ∨ name = "JSONValue" := by
    rw [File.supportNames] at member
    split at member <;> simp at member <;> tauto
  rcases known with rfl | rfl <;>
    exact ⟨by simp [HasSchemaLetter], by simp [EndsInDigit], by simp⟩

/-- **A schema never declares a name twice.** -/
theorem Schema.hasDistinctNames_bindings (schema : Schema) : schema.bindings.HasDistinctNames := by
  have declares := Table.registerAll_declares Registry.declares_empty schema.tables
  have distinct := (Table.registerAll_reads .empty schema.tables).1.distinct
    Registry.distinct_empty
  refine (Registry.hasDistinctNames_file_iff distinct _ fun _ _ => List.not_mem_nil).mpr
    ⟨List.nodup_nil, fun name member declared => ?_⟩
  rw [List.map_nil, List.append_nil] at member
  obtain ⟨unmarked, plain, _⟩ := supportNames_apart _ member
  have derived := (declares name plain).mp declared
  rw [List.nil_append, List.mem_flatMap] at derived
  obtain ⟨table, _, inside⟩ := derived
  rw [Table.typeNames, structTypeNames, List.mem_append, List.mem_singleton] at inside
  refine unmarked ?_
  have document : "Document" ∈ [table.name, "Document"] := by simp
  rcases inside with inside | inside
  · exact hasSchemaLetter_fields document _ name inside
  · rw [inside]
    exact hasSchemaLetter_typeName document

/-! ### The functions of an interface -/

namespace Api

/-- The names that derive from a function for the declarations of its types. -/
def FunctionShape.typeNames (shape : FunctionShape) : List String :=
  structTypeNames (shape.path ++ ["Args"]) shape.argumentFields ++
    match shape.resultFields? with
    | some fields => structTypeNames (shape.path ++ ["Return"]) fields
    | none => shapeTypeNames shape.path shape.result.shape

/-- The other name for the result of a function, where it has one. -/
def FunctionShape.aliasNames (shape : FunctionShape) : List String :=
  match shape.resultFields? with
  | some _ => []
  | none => [typeName (shape.path ++ ["Return"])]

theorem FunctionShape.register_declares {registry : Registry} {names : List String}
    (declares : registry.Declares names) (shape : FunctionShape) :
    (shape.register registry).1.map Alias.name = shape.aliasNames ∧
      (shape.register registry).2.Declares (names ++ shape.typeNames) := by
  have arguments := declares.renderStruct shape.argumentFields (shape.path ++ ["Args"]) .encode
  rw [FunctionShape.register, FunctionShape.aliasNames, FunctionShape.typeNames, ← List.append_assoc]
  cases shape.resultFields? with
  | some fields => exact ⟨rfl, arguments.renderStruct fields (shape.path ++ ["Return"]) .decode⟩
  | none =>
    generalize typeName (shape.path ++ ["Return"]) = name
    exact ⟨rfl, arguments.renderShape shape.path .decode shape.result.shape⟩

theorem registerAll_declares {registry : Registry} {names : List String}
    (declares : registry.Declares names) (shapes : List FunctionShape) :
    (registerAll registry shapes).1.map Alias.name = shapes.flatMap FunctionShape.aliasNames ∧
      (registerAll registry shapes).2.Declares
        (names ++ shapes.flatMap FunctionShape.typeNames) := by
  induction shapes generalizing registry names with
  | nil =>
    rw [List.flatMap_nil, List.flatMap_nil, List.append_nil]
    exact ⟨rfl, declares⟩
  | cons shape rest ih =>
    obtain ⟨aliases, first⟩ := shape.register_declares declares
    obtain ⟨others, complete⟩ := ih first
    rw [List.flatMap_cons, List.flatMap_cons, ← List.append_assoc]
    refine ⟨?_, complete⟩
    rw [registerAll, List.map_append, aliases, others]

/-- The other name of a result ends in a letter. -/
theorem FunctionShape.getLast?_aliasNames {shape : FunctionShape} {name : String}
    (member : name ∈ shape.aliasNames) : name.toList.getLast? = some 'n' := by
  rw [FunctionShape.aliasNames] at member
  split at member
  · cases member
  · rw [List.mem_singleton] at member
    rw [member, getLast?_typeName shape.path (by decide)]
    decide

end Api

/-! ### Distinct names -/

/-- **Which files declare no name twice.** Every file of a schema. The file of an interface exactly
where the other names of result types differ from each other, and where neither they nor the names of
the support code are derived for a declaration. -/
theorem declaredNames_distinct_iff (schema : Schema) (source : String)
    (shapes : List Api.FunctionShape) :
    schema.bindings.HasDistinctNames ∧
      ((Api.bindings source shapes).HasDistinctNames ↔
        (shapes.flatMap Api.FunctionShape.aliasNames).Nodup ∧
          ∀ name ∈ (Api.bindings source shapes).supportNames ++
              shapes.flatMap Api.FunctionShape.aliasNames,
            name ∉ shapes.flatMap Api.FunctionShape.typeNames) := by
  refine ⟨Schema.hasDistinctNames_bindings schema, ?_⟩
  obtain ⟨aliases, declares⟩ := Api.registerAll_declares Registry.declares_empty shapes
  have distinct := (Api.registerAll_reads .empty shapes).1.distinct Registry.distinct_empty
  have ending : ∀ name ∈ shapes.flatMap Api.FunctionShape.aliasNames,
      name.toList.getLast? = some 'n' := by
    intro name member
    obtain ⟨shape, _, inside⟩ := List.mem_flatMap.mp member
    exact Api.FunctionShape.getLast?_aliasNames inside
  have apart : ∀ name ∈ (Api.bindings source shapes).supportNames,
      name ∉ (Api.registerAll .empty shapes).1.map Alias.name := by
    intro name member other
    rw [aliases] at other
    exact (supportNames_apart _ member).2.2 (ending name other)
  rw [Api.bindings, Registry.hasDistinctNames_file_iff distinct _ apart, aliases]
  refine and_congr_right fun _ => forall₂_congr fun name member => not_congr ?_
  have plain : ¬EndsInDigit name := by
    rcases List.mem_append.mp member with support | other
    · exact (supportNames_apart _ support).2.1
    · rintro ⟨last, same, digit⟩
      cases (ending name other).symm.trans same
      cases digit
  rw [declares name plain, List.nil_append]

/-- A public query of the first root with the given result. -/
def queryAt (path : List String) (result : Validator) : Api.FunctionShape where
  function := ⟨"api", ".".intercalate path, .query, .everyone, 0, 0⟩
  path := path
  arguments := .ofShape (.object [])
  result := result

/-- **Two functions whose paths have the same words share the other name of their results**, though the
results differ: that name does not go through the registry. -/
theorem bindings_repeats_alias :
    ¬ ∀ (source : String) (shapes : List Api.FunctionShape),
      (Api.bindings source shapes).HasDistinctNames := by
  intro always
  have repeated := always "" [queryAt ["getItem"] (.ofShape .number),
    queryAt ["get_item"] (.ofShape .string)]
  revert repeated
  decide +kernel

/-- An object that may be null takes the name of the path alone, which the support code may have. -/
example : "ConvexId" ∈ (queryAt ["convex", "id"] ⟨.object [], false, true⟩).typeNames := by
  decide

end SwiftBindings
