/-
**What is written into trees.**

Making directories and writing files keep each directory of a tree and leave something wherever something
was (`Tree.Keeps`), so a path that has led somewhere leads there ever after. Directories are made only where
nothing was, and a file that is written is the only one that changes.

**The main statement.** `Tree.laws`: a tree is a machine of which all holds that is documented about
operations on files. Its files are seen by their locations.
-/

import SwiftBindings.Files.Tree
import SwiftBindings.Proofs.Files.Views

namespace SwiftBindings.Files

/-! ### What is put into a tree -/

section Put

variable {tree : Tree} {location : Location} {entry : Entry}

/-- A tree holds what was put into it, but for the directories that are always there. -/
theorem Tree.lookup?_put (free : tree.isStanding location = false) (other : Location) :
    Tree.lookup? (tree.put location entry) other =
      if other = location then some entry else tree.lookup? other := by
  show (if tree.isStanding other then _ else (Keyed.put location entry tree.entries).lookup other) = _
  rw [Keyed.lookup_put]
  by_cases same : other = location
  · rw [if_pos same, if_pos same, same, free, if_neg Bool.false_ne_true]
  · rw [if_neg same, if_neg same, Tree.lookup?]

theorem Tree.not_isStanding (other : tree.lookup? location ≠ some .directory) :
    tree.isStanding location = false := by
  cases standing : tree.isStanding location with
  | false => rfl
  | true => exact absurd (by rw [Tree.lookup?, if_pos standing]) other

theorem Tree.hasDirectory_eq_true :
    tree.hasDirectory location = true ↔ tree.lookup? location = some .directory :=
  beq_iff_eq

end Put

/-! ### Where names lead -/

/-- From a location, names lead to another, each but the last through a directory. -/
inductive Tree.Leads (tree : Tree) : Location → List String → Location → Prop where
  /-- No names stay where they are. -/
  | here (location : Location) : Leads tree location [] location
  /-- A dot stays in a directory. -/
  | stay {here target : Location} {rest : List String} (there : tree.hasDirectory here = true)
    (onward : Leads tree here rest target) : Leads tree here ("." :: rest) target
  /-- Two dots go to the directory around. -/
  | up {here target : Location} {rest : List String} (there : tree.hasDirectory here = true)
    (onward : Leads tree here.up rest target) : Leads tree here (".." :: rest) target
  /-- Any other name goes to what is held under it. -/
  | down {here target : Location} {name : String} {rest : List String}
    (there : tree.hasDirectory here = true) (apart : name ≠ ".") (below : name ≠ "..")
    (short : isTooLong name = false) (found : tree.lookup? (here ++ [name]) ≠ none)
    (onward : Leads tree (here ++ [name]) rest target) : Leads tree here (name :: rest) target

section Leads

variable {tree : Tree} {here between target : Location} {names rest : List String}

theorem Tree.Leads.append (first : tree.Leads here names between)
    (second : tree.Leads between rest target) : tree.Leads here (names ++ rest) target := by
  induction first with
  | here => exact second
  | stay there _ ih => exact .stay there (ih second)
  | up there _ ih => exact .up there (ih second)
  | down there apart below short found _ ih => exact .down there apart below short found (ih second)

theorem Tree.leads_of_walk (names : List String) : ∀ {here : Location},
    tree.walk here names = .ok target → tree.Leads here names target := by
  induction names with
  | nil =>
    intro here walks
    cases walks
    exact .here _
  | cons name rest ih =>
    intro here walks
    rw [Tree.walk] at walks
    split at walks
    · cases walks
    · rename_i directory
      have there : tree.hasDirectory here = true := by simpa using directory
      split at walks
      · rename_i stays
        rw [eq_of_beq stays]
        exact .stay there (ih walks)
      · split at walks
        · rename_i leaves
          rw [eq_of_beq leaves]
          exact .up there (ih walks)
        · split at walks
          · cases walks
          · split at walks
            · cases walks
            · rename_i apart below short found
              exact .down there (mt beq_iff_eq.mpr apart) (mt beq_iff_eq.mpr below)
                (Bool.not_eq_true _ ▸ short) (mt Option.isNone_iff_eq_none.mpr found) (ih walks)

/-- A walk comes to where the names lead. -/
theorem Tree.walk_eq_ok : tree.walk here names = .ok target ↔ tree.Leads here names target := by
  refine ⟨leads_of_walk names, fun leads => ?_⟩
  induction leads with
  | here => rfl
  | stay there _ ih => rw [Tree.walk, there, ih]; rfl
  | up there _ ih => rw [Tree.walk, there, ih]; rfl
  | down there apart below short found _ ih =>
    rw [Tree.walk, there, Bool.not_true, if_neg Bool.false_ne_true, if_neg (mt beq_iff_eq.mp apart),
      if_neg (mt beq_iff_eq.mp below), short, if_neg Bool.false_ne_true,
      if_neg (mt Option.isNone_iff_eq_none.mp found), ih]

end Leads

/-! ### Paths keep leading where they led -/

/-- Each directory is kept, and something is kept wherever something was. -/
structure Tree.Keeps (before after : Tree) : Prop where
  /-- The working directory is the same. -/
  home : after.home = before.home
  /-- Directories are directories. -/
  directory : ∀ location, before.lookup? location = some .directory →
    after.lookup? location = some .directory
  /-- Nothing is where nothing was. -/
  absent : ∀ location, after.lookup? location = none → before.lookup? location = none

section Keeps

variable {before between after : Tree}

/-- Names that led somewhere lead there still. -/
theorem Tree.Leads.keep {here target : Location} {names : List String} (keeps : before.Keeps after)
    (leads : before.Leads here names target) : after.Leads here names target := by
  have kept : ∀ {location}, before.hasDirectory location = true → after.hasDirectory location = true :=
    fun there => hasDirectory_eq_true.mpr (keeps.directory _ (hasDirectory_eq_true.mp there))
  induction leads with
  | here location => exact .here location
  | stay there _ ih => exact .stay (kept there) ih
  | up there _ ih => exact .up (kept there) ih
  | down there apart below short found _ ih =>
    exact .down (kept there) apart below short (mt (keeps.absent _) found) ih

theorem Tree.Keeps.startOf (keeps : before.Keeps after) (path : String) :
    after.startOf path = before.startOf path := by
  rw [Tree.startOf, Tree.startOf, keeps.home]

/-- **A path that led somewhere leads there still.** -/
theorem Tree.Keeps.locate (keeps : before.Keeps after) {path : String} {location : Location}
    (leads : before.locate path = .ok location) : after.locate path = .ok location := by
  rw [Tree.locate] at leads ⊢
  cases refused : fault? path with
  | some fault =>
    rw [refused] at leads
    cases leads
  | none =>
    rw [refused] at leads
    dsimp only at leads ⊢
    rw [keeps.startOf]
    exact walk_eq_ok.mpr ((walk_eq_ok.mp leads).keep keeps)

end Keeps

/-! ### Directories -/

/-- There are no more than further directories, where nothing was. -/
structure Tree.MoreDirectories (before after : Tree) : Prop where
  /-- The working directory is the same. -/
  home : after.home = before.home
  /-- What is not the same is a directory where nothing was. -/
  entries : ∀ location, after.lookup? location = before.lookup? location ∨
    (before.lookup? location = none ∧ after.lookup? location = some .directory)

section Directories

variable {before between after tree : Tree}

theorem Tree.MoreDirectories.refl (tree : Tree) : tree.MoreDirectories tree :=
  ⟨rfl, fun _ => .inl rfl⟩

theorem Tree.MoreDirectories.trans (first : before.MoreDirectories between)
    (second : between.MoreDirectories after) : before.MoreDirectories after := by
  refine ⟨second.home.trans first.home, fun location => ?_⟩
  obtain same | ⟨absent, made⟩ := second.entries location
  · rw [same]
    exact first.entries location
  · obtain same | ⟨_, already⟩ := first.entries location
    · exact .inr ⟨same ▸ absent, made⟩
    · rw [already] at absent
      cases absent

theorem Tree.MoreDirectories.keeps (more : before.MoreDirectories after) : before.Keeps after where
  home := more.home
  directory location there := by
    obtain same | ⟨absent, _⟩ := more.entries location
    · rw [same, there]
    · rw [absent] at there
      cases there
  absent location gone := by
    obtain same | ⟨absent, _⟩ := more.entries location
    · rw [← same, gone]
    · exact absent

theorem Tree.moreDirectories_makeDirectory {path : String}
    (makes : before.makeDirectory path = .ok after) : before.MoreDirectories after := by
  rw [Tree.makeDirectory] at makes
  split at makes
  · cases makes
  · cases makes
  · split at makes
    · cases makes
    · split at makes
      · cases makes
      · rename_i around name _ _ vacant
        obtain rfl := Except.ok.inj makes
        have absent : before.lookup? (around ++ [name]) = none :=
          Option.not_isSome_iff_eq_none.mp vacant
        refine ⟨rfl, fun location => ?_⟩
        rw [Tree.lookup?_put (Tree.not_isStanding (by rw [absent]; exact nofun))]
        by_cases same : location = around ++ [name]
        · rw [if_pos same, same]
          exact .inr ⟨absent, rfl⟩
        · exact .inl (if_neg same)

theorem Tree.moreDirectories_makeAlong (tree : Tree) (paths : List String) :
    tree.MoreDirectories (tree.makeAlong paths).2 := by
  induction paths with
  | nil => exact .refl tree
  | cons path around ih =>
    rw [Tree.makeAlong]
    split
    · exact .refl tree
    · split
      · rename_i made
        exact moreDirectories_makeDirectory made
      · split
        · rename_i along
          rw [along] at ih
          exact ih
        · rename_i next along
          rw [along] at ih
          split
          · rename_i made
            exact ih.trans (moreDirectories_makeDirectory made)
          · split <;> exact ih
      · split <;> exact .refl tree

/-- **Making a directory changes nothing that is there**, even where it fails. -/
theorem Tree.moreDirectories_makeDirectories (tree : Tree) (path : String) :
    tree.MoreDirectories (tree.makeDirectories path).2 :=
  moreDirectories_makeAlong tree _

end Directories

/-! ### One file -/

section File

variable {before after tree : Tree} {path contents : String}

/-- The place of a path: its last name, in the directory to which the names before it lead. -/
theorem Tree.eq_of_place {around : Location} {name : String}
    (stands : tree.place path = .ok (around, some name)) :
    fault? path = none ∧ tree.hasDirectory around = true ∧ name ≠ "." ∧ name ≠ ".." ∧
      ∃ names, namesOf path = names ++ [name] ∧ tree.Leads (tree.startOf path) names around := by
  rw [Tree.place] at stands
  split at stands
  · cases stands
  · rename_i accepted
    dsimp only at stands
    split at stands
    · cases stands
    · rename_i leads
      split at stands
      · cases stands
      · rename_i directory
        obtain ⟨rfl, named⟩ := Prod.mk.inj (Except.ok.inj stands)
        obtain ⟨last, proper⟩ := Option.filter_eq_some_iff.mp named
        obtain ⟨apart, below⟩ := Bool.and_eq_true_iff.mp proper
        obtain ⟨names, all⟩ := List.getLast?_eq_some_iff.mp last
        rw [all, List.dropLast_concat] at leads
        exact ⟨accepted, by simpa using directory, bne_iff_ne.mp apart, bne_iff_ne.mp below, names, all,
          walk_eq_ok.mp leads⟩

/-- A file that takes the place of no directory keeps what is there. -/
theorem Tree.keeps_of_entries {target : Location} (home : after.home = before.home)
    (other : before.lookup? target ≠ some .directory)
    (entries : ∀ location, after.lookup? location =
      if location = target then some (.file contents) else before.lookup? location) :
    before.Keeps after where
  home := home
  directory location there := by
    rw [entries, if_neg, there]
    rintro rfl
    exact other there
  absent location gone := by
    rw [entries] at gone
    split at gone
    · cases gone
    · exact gone

/-- **A file that is written stands where its path leads**, and it is the only one that changes. -/
theorem Tree.eq_of_write (writes : before.write path contents = .ok after) :
    ∃ target, before.Keeps after ∧ after.locate path = .ok target ∧
      ∀ location, after.lookup? location =
        if location = target then some (.file contents) else before.lookup? location := by
  rw [Tree.write] at writes
  split at writes
  · cases writes
  · cases writes
  · rename_i around name stands
    obtain ⟨accepted, directory, apart, below, names, all, leads⟩ := eq_of_place stands
    split at writes
    · cases writes
    · split at writes
      · cases writes
      · split at writes
        · cases writes
        · rename_i ending short free
          obtain rfl := Except.ok.inj writes
          have other := mt hasDirectory_eq_true.mpr free
          have entries : ∀ location, Tree.lookup? (before.put (around ++ [name]) (.file contents))
              location = if location = around ++ [name] then some (.file contents)
                else before.lookup? location := lookup?_put (not_isStanding other)
          have keeps : before.Keeps (before.put (around ++ [name]) (.file contents)) :=
            keeps_of_entries rfl other entries
          refine ⟨around ++ [name], keeps, ?_, entries⟩
          have found := entries (around ++ [name])
          rw [if_pos rfl] at found
          rw [Tree.locate, accepted, all, if_neg ending, List.append_nil]
          refine walk_eq_ok.mpr ((leads.keep keeps).append (.down ?_ apart below
            (Bool.eq_false_iff.mpr short) ?_ (.here _)))
          · exact hasDirectory_eq_true.mpr (keeps.directory _ (hasDirectory_eq_true.mp directory))
          · rw [found]
            exact nofun

end File

/-! ### Trees as machines -/

/-- The bytes that an entry holds. -/
def Entry.bytes? : Entry → Option ByteArray
  | .directory => none
  | .file contents => some contents.toUTF8

/-- The files of a tree are seen by their locations. -/
def Tree.view : View Tree where
  Object := Location
  stores _ := True
  target? tree path := (tree.locate path).toOption
  contents? tree location := (tree.lookup? location).bind Entry.bytes?

section Laws

variable {before after tree : Tree}

theorem Tree.target?_eq_some {path : String} {location : Location} :
    Tree.view.target? tree path = some location ↔ tree.locate path = .ok location := by
  change (tree.locate path).toOption = some location ↔ _
  cases tree.locate path with
  | error fault => exact ⟨nofun, nofun⟩
  | ok other =>
    exact ⟨fun same => congrArg Except.ok (Option.some.inj same),
      fun same => congrArg some (Except.ok.inj same)⟩

theorem Tree.contents?_eq_none {location : Location} :
    Tree.view.contents? tree location = none ↔ ∀ contents, tree.lookup? location ≠ some (.file contents) := by
  change (tree.lookup? location).bind Entry.bytes? = none ↔ _
  rcases tree.lookup? location with _ | _ | contents
  · exact ⟨fun _ _ => nofun, fun _ => rfl⟩
  · exact ⟨fun _ _ => nofun, fun _ => rfl⟩
  · exact ⟨nofun, fun other => absurd rfl (other contents)⟩

/-- An object holds a text exactly if it is a file with the text. -/
theorem Tree.contents?_eq_some {text : String} {location : Location} :
    Tree.view.contents? tree location = some text.toUTF8 ↔
      tree.lookup? location = some (.file text) := by
  change (tree.lookup? location).bind Entry.bytes? = some text.toUTF8 ↔ _
  constructor
  · intro holds
    obtain ⟨entry, found, bytes⟩ := Option.bind_eq_some_iff.mp holds
    cases entry with
    | directory => cases bytes
    | file contents => rw [found, String.toByteArray_inj.mp (Option.some.inj bytes)]
  · intro found
    rw [found]
    rfl

theorem Tree.Keeps.target? (keeps : before.Keeps after) (path : String) (location : Location)
    (leads : Tree.view.target? before path = some location) :
    Tree.view.target? after path = some location :=
  target?_eq_some.mpr (keeps.locate (target?_eq_some.mp leads))

/-- Further directories hold no bytes. -/
theorem Tree.MoreDirectories.spares (more : before.MoreDirectories after) :
    Tree.view.Spares [] before after where
  leads := more.keeps.target?
  contents := by
    intro (location : Location) _
    change (after.lookup? location).bind Entry.bytes? = (before.lookup? location).bind Entry.bytes?
    obtain same | ⟨absent, made⟩ := more.entries location
    · rw [same]
    · rw [absent, made]
      rfl

/-- A file that is written is the one that its path leads to, and no other changes. -/
theorem Tree.spares_of_write {path text : String} (writes : before.write path text = .ok after) :
    Tree.view.Spares [path] before after ∧
      ∃ object, Tree.view.target? after path = some object ∧ Tree.view.Holds after object text := by
  obtain ⟨target, keeps, leads, entries⟩ := eq_of_write writes
  have found : Tree.view.target? after path = some target := target?_eq_some.mpr leads
  refine ⟨⟨keeps.target?, ?_⟩, target, found, fun _ => ?_⟩
  · intro (location : Location) apart
    change (after.lookup? location).bind Entry.bytes? = (before.lookup? location).bind Entry.bytes?
    have other : location ≠ target := by
      rintro rfl
      exact apart path List.mem_cons_self found
    rw [entries, if_neg other]
  · exact contents?_eq_some.mpr (by rw [entries, if_pos rfl])

/-- What writing comes to: a new tree, or a failure that leaves the tree. -/
theorem Tree.write_cases (tree : Tree) (path contents : String) :
    (∃ next, tree.write path contents = .ok next ∧
      Tree.host.write path contents tree = (.ok (), next)) ∨
      ∃ fault, Tree.host.write path contents tree = (.error fault, tree) := by
  cases writes : tree.write path contents with
  | ok next =>
    refine .inl ⟨next, rfl, ?_⟩
    simp only [Tree.host, modifyGet, MonadStateOf.modifyGet, StateT.modifyGet, writes]
    rfl
  | error fault =>
    refine .inr ⟨fault, ?_⟩
    simp only [Tree.host, modifyGet, MonadStateOf.modifyGet, StateT.modifyGet, writes]
    rfl

/-- **Of a tree all holds that is documented about operations on files.** -/
theorem Tree.laws : Tree.host.Laws Tree.view where
  occupied _ tree := .refl tree
  read _ tree := .refl tree
  makeDirectories path tree := (tree.moreDirectories_makeDirectories path).spares
  write path text tree := by
    obtain ⟨next, writes, result⟩ | ⟨fault, result⟩ := tree.write_cases path text
    · rw [result]
      exact (Tree.spares_of_write writes).1
    · rw [result]
      exact (View.Same.refl tree).spares _
  written path text tree after succeeds := by
    obtain ⟨next, writes, result⟩ | ⟨fault, result⟩ := tree.write_cases path text
    · rw [result] at succeeds
      obtain rfl := (Prod.mk.inj succeeds).2
      exact (Tree.spares_of_write writes).2
    · rw [result] at succeeds
      cases succeeds

/-! ### Disks without room -/

/-- The operations on a tree whose disk has no room: to write a file makes it or empties it, and fails
where there is anything to write. -/
def Tree.fullHost : Host (StateM Tree) :=
  { Tree.host with
    write := fun path contents tree =>
      ((Tree.host.write path "" tree).1.bind fun _ =>
        if contents = "" then .ok () else .error (.other "No space left on device (os error 28)"),
        (Tree.host.write path "" tree).2) }

/-- **All that is documented holds of a disk without room**, which empties the files it cannot write. -/
theorem Tree.fullLaws : Tree.fullHost.Laws Tree.view where
  occupied := laws.occupied
  read := laws.read
  makeDirectories := laws.makeDirectories
  write path _ tree := laws.write path "" tree
  written path text tree after succeeds := by
    obtain ⟨result, rfl⟩ := Prod.mk.inj succeeds
    cases made : (Tree.host.write path "" tree).1 with
    | error fault =>
      rw [made] at result
      cases result
    | ok =>
      rw [made] at result
      by_cases nothing : text = ""
      · rw [nothing]
        exact laws.written path "" tree _ (Prod.ext made rfl)
      · rw [show (Except.ok () : Except Fault Unit).bind _ = if text = "" then _ else _ from rfl,
          if_neg nothing] at result
        cases result

end Laws

end SwiftBindings.Files
