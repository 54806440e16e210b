/-
**What generated files say about functions and tables.**

A file holds the declarations of its registry sorted by kind and name. No two have one name, so a name
is found in the file exactly where it is found in the registry (`Registry.find?_file`), and what was
read back through the registry is read back through the file.

`rendering_reads_back` puts this together: for every run of requests, for every function of a
generated interface and for every table of a generated schema, following the generated type through
the declarations gives the erasure of what was rendered and nothing else.
-/

import SwiftBindings.Api.Bindings
import SwiftBindings.Proofs.Swift.ReadBack

namespace SwiftBindings

namespace Swift

/-! ### Finding declarations in a file -/

/-- The named declarations of a file, in the order of the text. -/
def File.declarations (file : File) : List Declaration :=
  file.markers.map .marker ++ (file.enumerations.map .enumeration ++ file.structs.map .struct)

/-- The declaration that a file has under a name. -/
def File.find? (file : File) (name : String) : Option Declaration :=
  file.declarations.find? fun declaration => declaration.name == name

/-- Where no two declarations have one name, a name finds what has it. -/
theorem find?_name_eq_some_iff {declarations : List Declaration}
    (distinct : (declarations.map Declaration.name).Nodup) (name : String)
    (declaration : Declaration) :
    declarations.find? (fun declaration => declaration.name == name) = some declaration ↔
      declaration ∈ declarations ∧ declaration.name = name := by
  constructor
  · intro found
    have same := List.find?_some found
    exact ⟨List.mem_of_find?_eq_some found, beq_iff_eq.mp same⟩
  · rintro ⟨inside, rfl⟩
    cases found : declarations.find? fun other => other.name == declaration.name with
    | none => exact absurd (beq_self_eq_true _) (List.find?_eq_none.mp found declaration inside)
    | some other =>
      have same := List.find?_some found
      rw [List.inj_on_of_nodup_map distinct (List.mem_of_find?_eq_some found) inside
        (beq_iff_eq.mp same)]

theorem sortByName_perm {α : Type} (name : α → String) (items : List α) :
    (sortByName name items).Perm items :=
  List.mergeSort_perm _ _

/-- A file has the declarations of its registry, each once. -/
theorem Registry.declarations_file_perm (registry : Registry) (header : List String)
    (aliases : List Alias) :
    (registry.file header aliases).declarations.Perm registry.declarations := by
  refine (((sortByName_perm _ _).map _).append
    (((sortByName_perm _ _).map _).append ((sortByName_perm _ _).map _))).trans ?_
  induction registry.declarations with
  | nil => exact .nil
  | cons declaration rest ih =>
    cases declaration with
    | marker declared => exact ih.cons _
    | enumeration declared => exact List.perm_middle.trans (ih.cons _)
    | struct declared =>
      refine List.Perm.trans ?_ (ih.cons _)
      exact (List.Perm.append_left _ List.perm_middle).trans List.perm_middle

/-- **A name is found in a file exactly where it is found in the registry of the file.** -/
theorem Registry.find?_file {registry : Registry} (distinct : registry.Distinct)
    (header : List String) (aliases : List Alias) :
    (registry.file header aliases).find? = registry.find? := by
  funext name
  have same := registry.declarations_file_perm header aliases
  have kept : ((registry.file header aliases).declarations.map Declaration.name).Nodup :=
    (same.map Declaration.name).nodup_iff.mpr distinct
  refine Option.ext fun declaration => ?_
  rw [File.find?, Registry.find?, find?_name_eq_some_iff kept, find?_name_eq_some_iff distinct,
    same.mem_iff]

end Swift

open Swift

/-! ### The functions of an interface -/

namespace Api

/-- What generated code says about a function, where declarations are found by name: a struct named
after its path is read as the fields of the arguments. A result that is an object and always present
has such a struct too; any other has another name for its type, and the type is read as the result. -/
structure FunctionShape.ReadsBack (declared : Lookup) (aliases : List Alias)
    (shape : FunctionShape) : Prop where
  /-- The struct of the arguments. -/
  arguments : ∃ attempt, ReadsAs declared .encode
    (.named (candidateName (typeName (shape.path ++ ["Args"])) attempt))
    (.ofShape (.object (erasedFields .encode shape.argumentFields)))
  /-- The struct of a result with fields. -/
  fields : ∀ fields, shape.resultFields? = some fields → ∃ attempt, ReadsAs declared .decode
    (.named (candidateName (typeName (shape.path ++ ["Return"])) attempt))
    (.ofShape (.object (erasedFields .decode fields)))
  /-- The other name for a result without. -/
  other : shape.resultFields? = none → ∃ type,
    ⟨typeName (shape.path ++ ["Return"]), type⟩ ∈ aliases ∧
      ReadsAs declared .decode type (shape.result.erased .decode)

/-- What is said about a function is kept when more is declared. -/
theorem FunctionShape.ReadsBack.mono {declared more : Lookup} {aliases others : List Alias}
    {shape : FunctionShape} (reads : shape.ReadsBack declared aliases)
    (kept : ∀ name declaration, declared name = some declaration → more name = some declaration)
    (contained : aliases ⊆ others) : shape.ReadsBack more others where
  arguments := by
    obtain ⟨attempt, inner⟩ := reads.arguments
    exact ⟨attempt, inner.mono kept⟩
  fields fields present := by
    obtain ⟨attempt, inner⟩ := reads.fields fields present
    exact ⟨attempt, inner.mono kept⟩
  other absent := by
    obtain ⟨type, member, inner⟩ := reads.other absent
    exact ⟨type, contained member, inner.mono kept⟩

/-- The types of one function say what its validators say. -/
theorem FunctionShape.register_reads (registry : Registry) (shape : FunctionShape) :
    registry.GrowsTo (shape.register registry).2 ∧
      shape.ReadsBack (shape.register registry).2.find? (shape.register registry).1 := by
  obtain ⟨⟨attempt, named⟩, first, arguments⟩ :=
    registry.renderStruct_reads shape.argumentFields (shape.path ++ ["Args"]) .encode
  rw [named, ← readsAs_iff] at arguments
  rw [FunctionShape.register]
  generalize (registry.renderStruct shape.argumentFields (shape.path ++ ["Args"]) .encode).2 =
    registered at first arguments
  cases present : shape.resultFields? with
  | some fields =>
    obtain ⟨⟨again, called⟩, second, result⟩ :=
      registered.renderStruct_reads fields (shape.path ++ ["Return"]) .decode
    rw [called, ← readsAs_iff] at result
    refine ⟨first.trans second, ⟨attempt, arguments.mono second.within⟩, ?_, ?_⟩
    · intro others same
      cases present.symm.trans same
      exact ⟨again, result⟩
    · intro absent
      cases present.symm.trans absent
  | none =>
    obtain ⟨second, result⟩ := registered.render_reads shape.result shape.path .decode
    refine ⟨first.trans second, ⟨attempt, arguments.mono second.within⟩, ?_, ?_⟩
    · intro others same
      cases present.symm.trans same
    · intro _
      exact ⟨_, List.mem_singleton_self _, readsAs_iff.mpr result⟩

/-- The types of all functions say what their validators say. -/
theorem registerAll_reads (registry : Registry) (shapes : List FunctionShape) :
    registry.GrowsTo (registerAll registry shapes).2 ∧ ∀ shape ∈ shapes,
      shape.ReadsBack (registerAll registry shapes).2.find? (registerAll registry shapes).1 := by
  induction shapes generalizing registry with
  | nil => exact ⟨.refl registry, fun _ inside => absurd inside List.not_mem_nil⟩
  | cons shape rest ih =>
    obtain ⟨first, reads⟩ := shape.register_reads registry
    obtain ⟨second, others⟩ := ih (shape.register registry).2
    refine ⟨first.trans second, fun member inside => ?_⟩
    rcases List.mem_cons.mp inside with rfl | inside
    · exact reads.mono second.within (List.subset_append_left _ _)
    · exact (others member inside).mono (fun _ _ found => found) (List.subset_append_right _ _)

/-- Every function of a generated interface is read back through the file. -/
theorem bindings_reads (source : String) (shapes : List FunctionShape) (shape : FunctionShape)
    (inside : shape ∈ shapes) :
    shape.ReadsBack (bindings source shapes).find? (bindings source shapes).aliases := by
  obtain ⟨grows, reads⟩ := registerAll_reads .empty shapes
  have found := Registry.find?_file (grows.distinct Registry.distinct_empty)
    (generatedHeader source "Functions:" (shapes.map fun shape =>
      shape.function.kind.text ++ " " ++ shape.function.qualified))
    (registerAll .empty shapes).1
  have whole := reads shape inside
  rw [← found] at whole
  exact whole

end Api

/-! ### The tables of a schema -/

/-- What generated code says about a table: a struct named after the table is read as the fields of
its documents. -/
def Table.ReadsBack (declared : Lookup) (table : Table) : Prop :=
  ∃ attempt, ReadsAs declared .decode
    (.named (candidateName (typeName [table.name, "Document"]) attempt))
    (.ofShape (.object (erasedFields .decode table.documentFields)))

/-- The structs of all tables say what their fields say. -/
theorem Table.registerAll_reads (registry : Registry) (tables : List Table) :
    registry.GrowsTo (tables.foldl Table.register registry) ∧ ∀ table ∈ tables,
      table.ReadsBack (tables.foldl Table.register registry).find? := by
  induction tables generalizing registry with
  | nil => exact ⟨.refl registry, fun _ inside => absurd inside List.not_mem_nil⟩
  | cons table rest ih =>
    obtain ⟨⟨attempt, named⟩, first, reads⟩ :=
      registry.renderStruct_reads table.documentFields [table.name, "Document"] .decode
    rw [named, ← readsAs_iff] at reads
    obtain ⟨second, others⟩ := ih (Table.register registry table)
    refine ⟨first.trans second, fun member inside => ?_⟩
    rcases List.mem_cons.mp inside with rfl | inside
    · exact ⟨attempt, reads.mono second.within⟩
    · exact others member inside

/-- Every table of a generated schema is read back through the file. -/
theorem Schema.bindings_reads (schema : Schema) (table : Table) (inside : table ∈ schema.tables) :
    table.ReadsBack schema.bindings.find? := by
  obtain ⟨grows, reads⟩ := Table.registerAll_reads .empty schema.tables
  have found := Registry.find?_file (grows.distinct Registry.distinct_empty)
    (generatedHeader schema.source "Tables:" (schema.tables.map Table.name)) []
  have whole := reads table inside
  rw [← found] at whole
  exact whole

/-! ### Rendering is faithful -/

/-- **Rendering is faithful up to erasure.** Whatever is asked of one registry, in whatever order,
each type that was answered is read through the last registry as the erasure of what was asked, and
as nothing else. Every function of a generated interface and every table of a generated schema is
read back through the generated file in the same way. -/
theorem rendering_reads_back :
    (∀ requests : List Request, List.Forall₂ (fun request type =>
        ReadsAs (Registry.empty.answers requests).2.find? request.side type request.erasure)
      requests (Registry.empty.answers requests).1) ∧
    (∀ source shapes, ∀ shape ∈ shapes, Api.FunctionShape.ReadsBack
      (Api.bindings source shapes).find? (Api.bindings source shapes).aliases shape) ∧
    (∀ schema : Schema, ∀ table ∈ schema.tables, table.ReadsBack schema.bindings.find?) := by
  refine ⟨fun requests => ?_, Api.bindings_reads, Schema.bindings_reads⟩
  exact (Registry.empty.answers_read requests).2.imp fun request type reads => readsAs_iff.mpr reads

/-- **The leave for null of a field that may also be absent is lost where it is written**: two lists
of fields that differ in it are rendered as one struct. So nothing tells both leaves of every field
from the struct. -/
theorem renderStruct_forgets_null :
    ¬ ∃ leaves : String × Registry → List (Bool × Bool), ∀ fields : List Field,
      leaves (Registry.empty.renderStruct fields ["a"] .encode) =
        fields.map fun field => (field.optional, field.nullable) := by
  rintro ⟨leaves, told⟩
  have both := told [⟨"x", true, true, .ofShape .string⟩]
  have one := told [⟨"x", true, false, .ofShape .string⟩]
  have same : Registry.empty.renderStruct [⟨"x", true, true, .ofShape .string⟩] ["a"] .encode =
      Registry.empty.renderStruct [⟨"x", true, false, .ofShape .string⟩] ["a"] .encode := rfl
  rw [same, one] at both
  cases both

end SwiftBindings
