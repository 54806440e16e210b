/-
**What a selection selects.**

A selection is read as sets of qualified paths: those of the functions that are there (`pathsOf`) and
those that the entries of a list mean (`denoted`). The selected functions come in the order of their
paths, one for each path, so which path was listed first or twice makes no difference.

An entry may be written in full, with the root in front, or below the first root alone. Both mean the
path of the function where no name has a dot or a blank in it (`IsSegment`): then nothing is trimmed off,
and the first segment is the first name.

**The main statement.** `selection_is_set_algebra`: the selected paths increase strictly and are the wanted
ones without the excluded ones, entries may be reordered and repeated, and each function that was
discovered can be addressed by its path.
-/

import Mathlib.Data.Set.Basic
import Mathlib.Data.String.Basic
import SwiftBindings.Api.Selection
import SwiftBindings.Proofs.Api.FilterRuns
import SwiftBindings.Proofs.Api.References
import SwiftBindings.Proofs.Related

namespace SwiftBindings.Api

open Declared Text TypeGraph

/-! ### Sets of paths -/

/-- The qualified paths of functions. -/
def pathsOf (functions : List Function) : Set String :=
  {path | ∃ function ∈ functions, function.qualified = path}

/-- The qualified paths that the entries of a list mean. -/
def denoted (roots entries : List String) : Set String :=
  {path | ∃ entry ∈ entries, qualifiedEntry roots entry = path}

/-- The paths that are wanted: the listed ones that are there, or by default those that every client may
call. -/
def Selection.wantedPaths (selection : Selection) (roots : List String) (functions : List Function) :
    Set String :=
  match selection.included, selection.default with
  | [], .everyone => pathsOf (functions.filter fun function => function.visibility == .everyone)
  | [], .curated entries => pathsOf functions ∩ denoted roots entries
  | included, _ => pathsOf functions ∩ denoted roots included

/-- A selection by paths alone: one of the given functions for each wanted path that is not excluded, in
the order of the paths. -/
structure Selection.SelectsPaths (selection : Selection) (roots : List String)
    (functions selected : List Function) : Prop where
  /-- Each path comes once, and the paths increase. -/
  increasing : (selected.map Function.qualified).Pairwise (· < ·)
  /-- The paths are the wanted ones without the excluded ones. -/
  paths : pathsOf selected =
    selection.wantedPaths roots functions \ denoted roots selection.excluded
  /-- No function is made up. -/
  among : ∀ function ∈ selected, function ∈ functions

/-! ### One function for each path -/

/-- Of functions in the order of their paths, all from the given path on, one is left for each path but
the given one. -/
theorem dropRepeated_increasing {previous : Option String} {functions : List Function}
    (ordered : (functions.map Function.qualified).Pairwise (· ≤ ·))
    (behind : ∀ path ∈ previous, ∀ function ∈ functions, path ≤ function.qualified) :
    ((dropRepeated previous functions).map Function.qualified).Pairwise (· < ·) ∧
      (∀ path ∈ previous, ∀ function ∈ dropRepeated previous functions, path < function.qualified) ∧
      ∀ path, (∃ function ∈ dropRepeated previous functions, function.qualified = path) ↔
        (∃ function ∈ functions, function.qualified = path) ∧ previous ≠ some path := by
  induction functions generalizing previous with
  | nil => exact ⟨.nil, fun _ _ _ member => absurd member List.not_mem_nil, by simp [dropRepeated]⟩
  | cons function rest ih =>
    rw [List.map_cons, List.pairwise_cons, List.forall_mem_map] at ordered
    obtain ⟨least, ordered⟩ := ordered
    rw [dropRepeated]
    split
    · -- The path was there before, and so it is left out.
      rename_i same
      obtain ⟨increases, above, paths⟩ := ih ordered fun path given other member =>
        behind path given other (List.mem_cons_of_mem _ member)
      refine ⟨increases, above, fun path => (paths path).trans ?_⟩
      constructor
      · rintro ⟨⟨other, member, rfl⟩, new⟩
        exact ⟨⟨other, List.mem_cons_of_mem _ member, rfl⟩, new⟩
      · rintro ⟨⟨other, member, rfl⟩, new⟩
        rcases List.mem_cons.mp member with rfl | member
        · exact absurd same new
        · exact ⟨⟨other, member, rfl⟩, new⟩
    · rename_i new
      obtain ⟨increases, above, paths⟩ := @ih (some function.qualified) ordered
        fun path given other member => Option.mem_some_iff.mp given ▸ least other member
      have own := above function.qualified rfl
      have later : ∀ path ∈ previous, path < function.qualified := fun path given =>
        lt_of_le_of_ne (behind path given function List.mem_cons_self) fun same =>
          new (same ▸ given)
      refine ⟨?_, ?_, fun path => ?_⟩
      · rw [List.map_cons, List.pairwise_cons, List.forall_mem_map]
        exact ⟨own, increases⟩
      · intro path given other member
        rcases List.mem_cons.mp member with rfl | member
        · exact later path given
        · exact (later path given).trans (own other member)
      · constructor
        · rintro ⟨other, member, rfl⟩
          rcases List.mem_cons.mp member with rfl | member
          · exact ⟨⟨other, List.mem_cons_self, rfl⟩, new⟩
          · obtain ⟨⟨found, inside, same⟩, _⟩ := (paths _).mp ⟨other, member, rfl⟩
            refine ⟨⟨found, List.mem_cons_of_mem _ inside, same⟩, fun given => ?_⟩
            exact absurd ((later _ given).trans (own other member)) (lt_irrefl _)
        · rintro ⟨⟨other, member, rfl⟩, _⟩
          by_cases same : function.qualified = other.qualified
          · exact ⟨function, List.mem_cons_self, same⟩
          · have inside := (List.mem_cons.mp member).resolve_left fun equal => same (equal ▸ rfl)
            obtain ⟨found, kept, equal⟩ := (paths other.qualified).mpr
              ⟨⟨other, inside, rfl⟩, fun given => same (Option.some.inj given)⟩
            exact ⟨found, List.mem_cons_of_mem _ kept, equal⟩

theorem mem_of_mem_dropRepeated {previous : Option String} {functions : List Function}
    {function : Function} (member : function ∈ dropRepeated previous functions) :
    function ∈ functions := by
  induction functions generalizing previous with
  | nil => exact member
  | cons first rest ih =>
    rw [dropRepeated] at member
    split at member
    · exact List.mem_cons_of_mem _ (ih member)
    · rcases List.mem_cons.mp member with rfl | member
      · exact List.mem_cons_self
      · exact List.mem_cons_of_mem _ (ih member)

/-! ### Entries of lists -/

theorem isListed_iff {roots entries : List String} {function : Function} :
    isListed roots entries function = true ↔ function.qualified ∈ denoted roots entries := by
  rw [isListed, decide_eq_true_iff, List.mem_map]
  rfl

/-- The functions that are wanted and not excluded. -/
def Selection.candidates (selection : Selection) (roots : List String) (functions : List Function) :
    List Function :=
  functions.filter fun function =>
    selection.wants roots function && !isListed roots selection.excluded function

/-- The paths of listed functions are the listed paths that are there. -/
theorem pathsOf_filter_isListed (roots entries : List String) (functions : List Function) :
    pathsOf (functions.filter (isListed roots entries)) = pathsOf functions ∩ denoted roots entries := by
  ext path
  constructor
  · rintro ⟨function, member, rfl⟩
    obtain ⟨inside, listed⟩ := List.mem_filter.mp member
    exact ⟨⟨function, inside, rfl⟩, isListed_iff.mp listed⟩
  · rintro ⟨⟨function, inside, rfl⟩, listed⟩
    exact ⟨function, List.mem_filter.mpr ⟨inside, isListed_iff.mpr listed⟩, rfl⟩

theorem pathsOf_filter_wants (selection : Selection) (roots : List String)
    (functions : List Function) :
    pathsOf (functions.filter (selection.wants roots)) = selection.wantedPaths roots functions := by
  obtain ⟨_ | ⟨entry, rest⟩, excluded, _ | entries⟩ := selection
  · rfl
  · exact pathsOf_filter_isListed roots entries functions
  · exact pathsOf_filter_isListed roots (entry :: rest) functions
  · exact pathsOf_filter_isListed roots (entry :: rest) functions

theorem pathsOf_candidates (selection : Selection) (roots : List String) (functions : List Function) :
    pathsOf (selection.candidates roots functions) =
      selection.wantedPaths roots functions \ denoted roots selection.excluded := by
  rw [← pathsOf_filter_wants]
  ext path
  constructor
  · rintro ⟨function, member, rfl⟩
    obtain ⟨inside, kept⟩ := List.mem_filter.mp member
    obtain ⟨wanted, left⟩ := Bool.and_eq_true_iff.mp kept
    refine ⟨⟨function, List.mem_filter.mpr ⟨inside, wanted⟩, rfl⟩, fun excluded => ?_⟩
    rw [isListed_iff.mpr excluded] at left
    cases left
  · rintro ⟨⟨function, member, rfl⟩, kept⟩
    obtain ⟨inside, wanted⟩ := List.mem_filter.mp member
    refine ⟨function, List.mem_filter.mpr ⟨inside, Bool.and_eq_true_iff.mpr ⟨wanted, ?_⟩⟩, rfl⟩
    rw [Bool.not_eq_true', Bool.eq_false_iff]
    exact fun listed => kept (isListed_iff.mp listed)

/-- **A selection selects by paths.** -/
theorem Selection.select_selectsPaths (selection : Selection) (roots : List String)
    (functions : List Function) :
    selection.SelectsPaths roots functions (selection.select roots functions) := by
  have sorted : ((selection.candidates roots functions).mergeSort fun first second =>
      decide (first.qualified ≤ second.qualified)).Pairwise fun first second =>
        decide (first.qualified ≤ second.qualified) = true :=
    List.pairwise_mergeSort (by simpa using fun _ _ _ => le_trans)
      (by simpa using fun _ _ => le_total _ _) _
  have perm := List.mergeSort_perm (selection.candidates roots functions) fun first second =>
    decide (first.qualified ≤ second.qualified)
  have ordered := List.pairwise_map.mpr (sorted.imp of_decide_eq_true)
  obtain ⟨increases, _, paths⟩ := @dropRepeated_increasing none _ ordered
    fun _ given => by cases given
  refine ⟨increases, ?_, fun function member => ?_⟩
  · rw [← pathsOf_candidates]
    ext path
    refine (paths path).trans ((and_iff_left (by simp)).trans ?_)
    exact exists_congr fun function => and_congr_left fun _ => perm.mem_iff
  · exact (List.mem_filter.mp (perm.mem_iff.mp (mem_of_mem_dropRepeated member))).1

/-! ### Other lists of the same entries -/

/-- The defaults are alike up to the order of entries and how often they are repeated. -/
def DefaultSelection.SameEntries : DefaultSelection → DefaultSelection → Prop
  | .everyone, .everyone => True
  | .curated entries, .curated others => ∀ entry, entry ∈ entries ↔ entry ∈ others
  | _, _ => False

/-- The selections are alike up to the order of entries and how often they are repeated. -/
structure Selection.SameEntries (selection other : Selection) : Prop where
  included : ∀ entry, entry ∈ selection.included ↔ entry ∈ other.included
  excluded : ∀ entry, entry ∈ selection.excluded ↔ entry ∈ other.excluded
  default : selection.default.SameEntries other.default

/-- Whether a function is listed depends on which entries there are. -/
theorem isListed_congr {entries others : List String}
    (same : ∀ entry, entry ∈ entries ↔ entry ∈ others) (roots : List String) (function : Function) :
    isListed roots entries function = isListed roots others function := by
  rw [Bool.eq_iff_iff, isListed_iff, isListed_iff]
  exact exists_congr fun entry => and_congr_left fun _ => same entry

theorem isEmpty_congr {entries others : List String}
    (same : ∀ entry, entry ∈ entries ↔ entry ∈ others) : entries.isEmpty = others.isEmpty := by
  rw [Bool.eq_iff_iff, List.isEmpty_iff, List.isEmpty_iff, List.eq_nil_iff_forall_not_mem,
    List.eq_nil_iff_forall_not_mem]
  exact forall_congr' fun entry => not_congr (same entry)

theorem Selection.SameEntries.wants {selection other : Selection} (same : selection.SameEntries other)
    (roots : List String) (function : Function) :
    selection.wants roots function = other.wants roots function := by
  rw [Selection.wants, Selection.wants, isEmpty_congr same.included,
    isListed_congr same.included]
  have default := same.default
  cases entries : selection.default with
  | everyone =>
    cases others : other.default with
    | everyone => rfl
    | curated _ =>
      rw [entries, others] at default
      exact default.elim
  | curated listed =>
    cases others : other.default with
    | everyone =>
      rw [entries, others] at default
      exact default.elim
    | curated _ =>
      rw [entries, others] at default
      dsimp only
      rw [isListed_congr default]

/-- **Selections with the same entries select the same functions.** -/
theorem Selection.SameEntries.select {selection other : Selection} (same : selection.SameEntries other)
    (roots : List String) (functions : List Function) :
    selection.select roots functions = other.select roots functions := by
  have candidates : ∀ function : Function,
      (selection.wants roots function && !isListed roots selection.excluded function) =
        (other.wants roots function && !isListed roots other.excluded function) :=
    fun function => by rw [same.wants, isListed_congr same.excluded]
  simp only [Selection.select, candidates]

/-! ### Names without dots and blanks -/

/-- The name is not empty and has neither a dot nor a blank in it. -/
def IsSegment (name : String) : Prop :=
  name ≠ "" ∧ ∀ c ∈ name.toList, c ≠ '.' ∧ isBlank c = false

instance (name : String) : Decidable (IsSegment name) :=
  @instDecidableAnd _ _ _ (List.decidableBAll (fun c => c ≠ '.' ∧ isBlank c = false) name.toList)

/-- Nothing is trimmed off a text whose first and last characters stay. -/
theorem trimWhile_of_ends {test : Char → Bool} {chars : List Char}
    (starts : ∀ c ∈ chars.head?, test c = false) (ends : ∀ c ∈ chars.getLast?, test c = false) :
    trimWhile test chars = chars := by
  have front : chars.dropWhile test = chars := by
    cases chars with
    | nil => rfl
    | cons first rest => rw [List.dropWhile_cons_of_neg (Bool.eq_false_iff.mp (starts first rfl))]
  have back : chars.reverse.dropWhile test = chars.reverse := by
    cases reversed : chars.reverse with
    | nil => rfl
    | cons last rest =>
      refine List.dropWhile_cons_of_neg (Bool.eq_false_iff.mp (ends last ?_))
      rw [← List.head?_reverse, reversed]
      rfl
  rw [trimWhile, front, dropEndWhile, back, List.reverse_reverse]

/-- The first and the last character of a dotted path are characters of its segments. -/
theorem mem_parts_of_ends {mark : Char} {parts : List (List Char)} (present : ∀ part ∈ parts, part ≠ []) :
    (∀ c ∈ ([mark].intercalate parts).head?, ∃ part ∈ parts, c ∈ part) ∧
      ∀ c ∈ ([mark].intercalate parts).getLast?, ∃ part ∈ parts, c ∈ part := by
  induction parts with
  | nil => exact ⟨fun _ head => (by cases head), fun _ last => (by cases last)⟩
  | cons part rest ih =>
    obtain ⟨first, others⟩ := List.forall_mem_cons.mp present
    cases rest with
    | nil =>
      rw [List.intercalate_singleton]
      exact ⟨fun c head => ⟨part, List.mem_cons_self, List.mem_of_head? head⟩,
        fun c last => ⟨part, List.mem_cons_self, List.mem_of_getLast? last⟩⟩
    | cons next rest =>
      have nonempty : [mark].intercalate (next :: rest) ≠ [] := by
        cases rest with
        | nil => rw [List.intercalate_singleton]; exact others next List.mem_cons_self
        | cons _ _ => rw [List.intercalate_cons_cons]; simp
      rw [List.intercalate_cons_cons, List.append_assoc]
      constructor
      · intro c head
        rw [List.head?_append_of_ne_nil _ first] at head
        exact ⟨part, List.mem_cons_self, List.mem_of_head? head⟩
      · intro c last
        rw [List.getLast?_append_of_ne_nil _ (by simp), List.getLast?_append_of_ne_nil _ nonempty] at last
        obtain ⟨found, member, inside⟩ := (ih others).2 c last
        exact ⟨found, List.mem_cons_of_mem _ member, inside⟩

section Segments

variable {names : List String} (named : ∀ name ∈ names, IsSegment name)

include named

/-- Nothing is trimmed off a path of such names. -/
theorem trim_path : trimWhile (· == '.') (trimWhile isBlank (".".intercalate names).toList) =
    (".".intercalate names).toList := by
  have parts : (".".intercalate names).toList = ['.'].intercalate (names.map String.toList) :=
    String.toList_intercalate
  have present : ∀ part ∈ names.map String.toList, part ≠ [] := by
    rintro part member empty
    obtain ⟨name, inside, rfl⟩ := List.mem_map.mp member
    exact (named name inside).1 (String.toList_eq_nil_iff.mp empty)
  have plain : ∀ c, (∃ part ∈ names.map String.toList, c ∈ part) → c ≠ '.' ∧ isBlank c = false := by
    rintro c ⟨part, member, held⟩
    obtain ⟨name, inside, rfl⟩ := List.mem_map.mp member
    exact (named name inside).2 c held
  obtain ⟨head, last⟩ := @mem_parts_of_ends '.' _ present
  rw [parts, trimWhile_of_ends (fun c first => (plain c (head c first)).2)
    (fun c final => (plain c (last c final)).2)]
  exact trimWhile_of_ends (fun c first => beq_false_of_ne (plain c (head c first)).1)
    (fun c final => beq_false_of_ne (plain c (last c final)).1)

/-- The segments of a path of such names are the names. -/
theorem segments_path (present : names ≠ []) : segments (".".intercalate names) = names := by
  have undotted : ∀ part ∈ names.map String.toList, '.' ∉ part := by
    rintro part member dot
    obtain ⟨name, inside, rfl⟩ := List.mem_map.mp member
    exact ((named name inside).2 _ dot).1 rfl
  have pieces := List.splitOn_intercalate '.' undotted (List.map_eq_nil_iff.not.mpr present)
  have parts : (".".intercalate names).toList = ['.'].intercalate (names.map String.toList) :=
    String.toList_intercalate
  rw [segments, parts]
  show (List.splitOn '.' _).map String.ofList = names
  rw [pieces, List.map_map]
  simp

/-- An entry that is a path of such names means the path where its first name is a root, and else the
path below the first root. -/
theorem qualifiedEntry_path (present : names ≠ []) (primary : String) (others : List String) :
    qualifiedEntry (primary :: others) (".".intercalate names) =
      if names.headD "" ∈ primary :: others then ".".intercalate names
      else primary ++ "." ++ ".".intercalate names := by
  rw [qualifiedEntry]
  simp only [trim_path named, String.ofList_toList, segments_path named present]

end Segments

-- Blanks and dots around an entry are trimmed off.
example : [".internal.sweep", " board.get "].map (qualifiedEntry ["api", "internal"]) =
    ["internal.sweep", "api.board.get"] := by
  decide +kernel

/-! ### Discovered functions -/

/-- The steps of a chain are properties of types. -/
theorem mem_properties_of_leads {graph : Graph} {id : TypeId} {chain : List Step}
    (leads : Leads graph id chain) : ∀ step ∈ chain, ∃ outer, step.1 ∈ graph.properties outer := by
  induction chain generalizing id with
  | nil => exact fun _ member => absurd member List.not_mem_nil
  | cons first rest ih =>
    intro step member
    rcases List.mem_cons.mp member with rfl | member
    · exact ⟨id, List.mem_of_getElem? leads.1⟩
    · exact ih leads.2 step member

/-- The path of a function below a root is made of names of properties. -/
theorem exists_names_of_mem {graph : Graph} {root : String} {id : TypeId} {function : Function}
    (member : function ∈ functionsBelow graph root id) :
    ∃ names, names ≠ [] ∧ function.root = root ∧ function.path = ".".intercalate names ∧
      ∀ name ∈ names, ∃ outer, ∃ property ∈ graph.properties outer, property.name = name := by
  obtain ⟨chains, _, those, records⟩ := functionsBelow_recordsChains graph root id
  obtain ⟨chain, inside, recorded⟩ := exists_of_mem_right records member
  have is := ((those chain).mp inside).1
  obtain ⟨_, _, _, _, _, _, _, _, _, _, rfl⟩ := recorded
  refine ⟨chainNames chain, List.map_eq_nil_iff.not.mpr is.ne_nil, rfl, rfl, fun name held => ?_⟩
  obtain ⟨step, among, rfl⟩ := List.mem_map.mp held
  obtain ⟨outer, found⟩ := mem_properties_of_leads is.leads step among
  exact ⟨outer, step.1, found, rfl⟩

/-- Each discovered function is below one of the roots in the last graph. -/
theorem exists_root_of_discovered {symbols : Symbols} {before roots : List String}
    {functions : List Function} {final : Graph}
    (found : functionsOfRoots symbols (graphAfter symbols before .initial) roots =
      .ok (functions, final)) {function : Function} (member : function ∈ functions) :
    ∃ root ∈ roots, ∃ id,
      function ∈ functionsBelow (graphAfter symbols (before ++ roots) .initial) root id := by
  induction roots generalizing before functions with
  | nil =>
    cases found
    cases member
  | cons root rest ih =>
    obtain ⟨own, resolved, others, first, further, rfl⟩ := functionsOfRoots_cons_eq_ok.mp found
    obtain ⟨id, exported, rfl, _⟩ := functionsOfRoot_eq_ok.mp first
    have asked : AskedFor symbols (before ++ root :: rest) before root id :=
      ⟨⟨rest, by simp⟩, by rw [exported]⟩
    cases exported.symm.trans asked.exportType?_eq
    rcases List.mem_append.mp member with inside | inside
    · refine ⟨root, List.mem_cons_self, id, ?_⟩
      rwa [functionsBelow_later (graphAfter_wellFormed symbols (before ++ [root])).settled
        asked.continues asked.lt_size root]
    · obtain ⟨other, among, below, held⟩ := ih further inside
      rw [List.append_assoc, List.singleton_append] at held
      exact ⟨other, List.mem_cons_of_mem _ among, below, held⟩

/-- The function is meant by its qualified path, and by its path below the root where the root is the
first one and the path does not begin like a root. -/
structure IsAddressed (roots : List String) (function : Function) : Prop where
  qualified : qualifiedEntry roots function.qualified = function.qualified
  path : roots.head? = some function.root → function.segments.headD "" ∉ roots →
    qualifiedEntry roots function.path = function.qualified

/-- Where no name has a dot or a blank, every discovered function is addressed by its path. -/
theorem isAddressed_of_discovered {symbols : Symbols} {roots : List String}
    {functions : List Function} {final : Graph}
    (found : functionsOfRoots symbols .initial roots = .ok (functions, final))
    (rooted : ∀ root ∈ roots, IsSegment root)
    (named : ∀ id, ∀ property ∈ final.properties id, IsSegment property.name)
    {function : Function} (member : function ∈ functions) : IsAddressed roots function := by
  rw [functionsOfRoots_graph found] at named
  have start : functionsOfRoots symbols (graphAfter symbols [] .initial) roots =
    .ok (functions, final) := found
  obtain ⟨root, among, id, below⟩ := exists_root_of_discovered start member
  obtain ⟨names, present, rfl, path, properties⟩ := exists_names_of_mem below
  have plain : ∀ name ∈ names, IsSegment name := by
    intro name held
    obtain ⟨outer, property, inside, rfl⟩ := properties name held
    exact named outer property inside
  have whole : function.qualified = ".".intercalate (function.root :: names) := by
    rw [Function.qualified, path, String.intercalate_cons_of_ne_nil present]
  have plain' : ∀ name ∈ function.root :: names, IsSegment name :=
    List.forall_mem_cons.mpr ⟨rooted _ among, plain⟩
  obtain ⟨primary, others, rfl⟩ := List.exists_cons_of_ne_nil (List.ne_nil_of_mem among)
  constructor
  · rw [whole, qualifiedEntry_path plain' (List.cons_ne_nil _ _)]
    exact if_pos among
  · intro first other
    cases first
    rw [Function.segments, path, segments_path plain present] at other
    rw [path, qualifiedEntry_path plain present, if_neg other, Function.qualified, path]

/-- **Selection is set algebra over qualified paths.** The selected paths increase strictly; they are those
of the listed functions, or of the default ones where none are listed, without the excluded ones. They do
not depend on the order of entries or on how often these are repeated. Where no root and no property has a
name with a dot or a blank in it, each discovered function is meant by its qualified path, and by its path
below the first root unless that begins like a root. -/
theorem selection_is_set_algebra (selection : Selection) (roots : List String)
    (functions : List Function) :
    selection.SelectsPaths roots functions (selection.select roots functions) ∧
      (∀ other : Selection, selection.SameEntries other →
        other.select roots functions = selection.select roots functions) ∧
      ∀ (symbols : Symbols) (final : Graph),
        functionsOfRoots symbols .initial roots = .ok (functions, final) →
        (∀ root ∈ roots, IsSegment root) →
        (∀ id, ∀ property ∈ final.properties id, IsSegment property.name) →
        ∀ function ∈ functions, IsAddressed roots function :=
  ⟨selection.select_selectsPaths roots functions, fun _ same => (same.select roots functions).symm,
    fun _ _ found rooted named _ member => isAddressed_of_discovered found rooted named member⟩

/-! ### A selection at work -/

/-- A place without a node has no properties. -/
theorem properties_of_size_le {graph : Graph} {id : TypeId} (outside : graph.nodes.size ≤ id) :
    graph.properties id = [] := by
  have opaqueKind : graph.kind id = .opaqueType := by
    rw [Graph.kind, Array.getElem?_eq_none outside]
    rfl
  rw [Graph.properties, Graph.propertiesWithin, opaqueKind]

theorem functionsOfRoots_of_toOption {symbols : Symbols} {graph : Graph} {roots : List String}
    {functions : List Function}
    (answers : (functionsOfRoots symbols graph roots).toOption.map Prod.fst = some functions) :
    functionsOfRoots symbols graph roots = .ok (functions, graphAfter symbols roots graph) := by
  cases found : functionsOfRoots symbols graph roots with
  | error _ =>
    rw [found] at answers
    cases answers
  | ok answer =>
    obtain ⟨those, final⟩ := answer
    rw [found] at answers
    cases answers
    rw [functionsOfRoots_graph found]

/-- A reference to a query of a visibility, as written. -/
def boardQuery (visibility : String) : TypeExpr :=
  .reference "FunctionReference" [.stringLiteral "query", .stringLiteral visibility, .keyword .string]

/-- Two roots, the first with a namespace in it. -/
def boardItems : List Item :=
  [.value "api" (.object [.property "board" false (.object [.property "get" false (boardQuery "public")]),
      .property "all" false (boardQuery "internal")]) true,
    .value "internal" (.object [.property "sweep" false (boardQuery "internal")]) true]

/-- The functions of the two roots. -/
def boardFunctions : List Function :=
  [⟨"api", "board.get", .query, .everyone, 3, 5⟩, ⟨"api", "all", .query, .internal, 3, 5⟩,
    ⟨"internal", "sweep", .query, .internal, 3, 5⟩]

/-- Two functions, one of them by its path below the first root. -/
def boardSelection : Selection := ⟨["board.get", "internal.sweep"], ["all"], .everyone⟩

/-- The same entries in another order, and one of them twice. -/
def repeatedSelection : Selection :=
  ⟨["internal.sweep", "board.get", "internal.sweep"], ["all", "all"], .everyone⟩

/-- The functions are discovered, and the selection selects two of them by their paths. -/
theorem boardSelection_selects :
    (functionsOfRoots (.ofItems boardItems) .initial ["api", "internal"] =
        .ok (boardFunctions, graphAfter (.ofItems boardItems) ["api", "internal"] .initial) ∧
      boardSelection.SameEntries repeatedSelection) ∧
    boardSelection.SelectsPaths ["api", "internal"] boardFunctions
      (boardSelection.select ["api", "internal"] boardFunctions) ∧
    repeatedSelection.select ["api", "internal"] boardFunctions =
      boardSelection.select ["api", "internal"] boardFunctions ∧
    ∀ function ∈ boardFunctions, IsAddressed ["api", "internal"] function := by
  have found : functionsOfRoots (.ofItems boardItems) .initial ["api", "internal"] =
      .ok (boardFunctions, graphAfter (.ofItems boardItems) ["api", "internal"] .initial) :=
    functionsOfRoots_of_toOption (by decide +kernel)
  have same : boardSelection.SameEntries repeatedSelection :=
    ⟨by simp [boardSelection, repeatedSelection, or_comm], by simp [boardSelection, repeatedSelection],
      trivial⟩
  have inside : ∀ id < 16, ∀ property ∈
      (graphAfter (.ofItems boardItems) ["api", "internal"] .initial).properties id,
        IsSegment property.name := by decide +kernel
  have size : (graphAfter (.ofItems boardItems) ["api", "internal"] .initial).nodes.size = 16 := by
    decide +kernel
  obtain ⟨selects, alike, addressed⟩ :=
    selection_is_set_algebra boardSelection ["api", "internal"] boardFunctions
  refine ⟨⟨found, same⟩, selects, alike _ same, addressed _ _ found (by decide) fun id => ?_⟩
  rcases Nat.lt_or_ge id 16 with below | above
  · exact inside id below
  · rw [properties_of_size_le (size.trans_le above)]
    exact fun _ member => absurd member List.not_mem_nil

end SwiftBindings.Api
