/-
**Files that are written one after the other.**

The files of a machine are seen through their paths (`View`): which object a path leads to, and which bytes
the object holds. Paths that are spelled differently may lead to one object, from the root or from the
working directory, through dots or through links. What the operations of a machine do to its files is
documented in these terms (`Host.Laws`). Nothing is said about which of them succeed, and a file that cannot
be written may be left empty or cut short.

**The main statements.** After files have been written in turn, `View.Wrote` says that each of their paths
leads to an object that holds what was written there last, and that no other object has changed. This stays
so when directories are made and when a further file is spoiled (`Wrote.spare`), and a further file that is
written joins the others (`Wrote.put`).
-/

import Mathlib.Data.List.Nodup
import SwiftBindings.Files.Host

namespace SwiftBindings.Files

/-- What can be seen of the files of a machine in each of its states. -/
structure View (σ : Type) where
  /-- What paths lead to: files, directories, devices. -/
  Object : Type
  /-- The object keeps what is written to it. Files do; devices and pipes do not. -/
  stores : Object → Prop
  /-- The object that a path leads to. -/
  target? : σ → String → Option Object
  /-- The bytes that an object holds. -/
  contents? : σ → Object → Option ByteArray

variable {σ : Type}

/-- The object holds the text, if it keeps what is written to it. -/
def View.Holds (view : View σ) (state : σ) (object : view.Object) (text : String) : Prop :=
  view.stores object → view.contents? state object = some text.toUTF8

/-- Every path leads where it led, and every object holds what it held. -/
structure View.Same (view : View σ) (before after : σ) : Prop where
  /-- No path leads elsewhere. -/
  target : ∀ path, view.target? after path = view.target? before path
  /-- No object has changed. -/
  contents : ∀ object, view.contents? after object = view.contents? before object

/-- Every path that led somewhere leads there still, and every object holds what it held but those that
the given paths lead to. -/
structure View.Spares (view : View σ) (paths : List String) (before after : σ) : Prop where
  /-- No path that led somewhere leads elsewhere. -/
  leads : ∀ path object, view.target? before path = some object → view.target? after path = some object
  /-- No other object has changed. -/
  contents : ∀ object, (∀ path ∈ paths, view.target? after path ≠ some object) →
    view.contents? after object = view.contents? before object

/-- What is documented about the operations on files, as far as they change what can be seen. -/
structure Host.Laws (host : Host (StateM σ)) (view : View σ) : Prop where
  /-- To look whether something is there changes nothing. -/
  occupied : ∀ path state, view.Same state (host.occupied path state).2
  /-- To read a file changes nothing. -/
  read : ∀ path state, view.Same state (host.read path state).2
  /-- To make directories changes no object, whether or not they are made. -/
  makeDirectories : ∀ path state, view.Spares [] state (host.makeDirectories path state).2
  /-- To write to a path changes at most the object that the path leads to. It may be made, emptied or
  written in part before the writing fails. -/
  write : ∀ path text state, view.Spares [path] state (host.write path text state).2
  /-- A path that has been written to leads to an object that holds the text. -/
  written : ∀ path text state after, host.write path text state = (.ok (), after) →
    ∃ object, view.target? after path = some object ∧ view.Holds after object text

/-! ### What is spared -/

section Spares

variable {view : View σ} {before between after : σ} {paths more : List String}

theorem View.Same.refl (state : σ) : view.Same state state :=
  ⟨fun _ => rfl, fun _ => rfl⟩

theorem View.Same.trans (first : view.Same before between) (second : view.Same between after) :
    view.Same before after where
  target path := (second.target path).trans (first.target path)
  contents object := (second.contents object).trans (first.contents object)

theorem View.Same.spares (same : view.Same before after) (paths : List String) :
    view.Spares paths before after where
  leads path _ found := (same.target path).trans found
  contents object _ := same.contents object

theorem View.Spares.refl (state : σ) : view.Spares [] state state :=
  (View.Same.refl state).spares []

theorem View.Spares.trans (first : view.Spares paths before between)
    (second : view.Spares more between after) : view.Spares (paths ++ more) before after where
  leads path object found := second.leads path object (first.leads path object found)
  contents object apart := by
    obtain ⟨untouched, spared⟩ := List.forall_mem_append.mp apart
    rw [second.contents object spared]
    exact first.contents object fun path given leads =>
      untouched path given (second.leads path object leads)

end Spares

/-! ### Files in turn -/

/-- Among files with their paths and contents, the last whose path leads to the object. -/
def View.IsLast (view : View σ) (state : σ) (files : List (String × String)) (object : view.Object)
    (last : String × String) : Prop :=
  ∃ earlier later, files = earlier ++ last :: later ∧ view.target? state last.1 = some object ∧
    ∀ other ∈ later, view.target? state other.1 ≠ some object

/-- What it means that files have been written in turn, each with its path and contents, and that the
writing to further paths has failed. -/
structure View.Wrote (view : View σ) (before : σ) (files : List (String × String))
    (broken : List String) (after : σ) : Prop where
  /-- No more has changed than what the paths lead to. -/
  spares : view.Spares (files.map Prod.fst ++ broken) before after
  /-- The path of each file leads to an object that holds what was written there last, unless the writing
  has failed there. -/
  holds : ∀ file ∈ files, ∃ object, view.target? after file.1 = some object ∧
    ((∀ path ∈ broken, view.target? after path ≠ some object) →
      ∃ last, view.IsLast after files object last ∧ view.Holds after object last.2)

section Wrote

variable {view : View σ} {before between after : σ} {files : List (String × String)}
  {broken : List String}

/-- Nothing has been written yet. -/
theorem View.Wrote.start (spares : view.Spares [] before after) : view.Wrote before [] [] after :=
  ⟨spares, nofun⟩

/-- **What spares other objects spares the files that have been written there.** -/
theorem View.Wrote.spare (wrote : view.Wrote before files [] between)
    (spares : view.Spares broken between after) : view.Wrote before files broken after := by
  have leadsOn : ∀ file ∈ files, ∀ object, view.target? after file.1 = some object →
      view.target? between file.1 = some object := by
    intro file written object found
    obtain ⟨other, leads, _⟩ := wrote.holds file written
    have same : other = object :=
      Option.some.inj ((spares.leads file.1 other leads).symm.trans found)
    rw [leads, same]
  refine ⟨by simpa using wrote.spares.trans spares, fun file written => ?_⟩
  obtain ⟨object, leads, intact⟩ := wrote.holds file written
  refine ⟨object, spares.leads file.1 object leads, fun apart => ?_⟩
  obtain ⟨last, ⟨earlier, later, rfl, there, elsewhere⟩, holds⟩ := intact nofun
  refine ⟨last, ⟨earlier, later, rfl, spares.leads last.1 object there, fun other behind found => ?_⟩,
    fun stores => (spares.contents object apart).trans (holds stores)⟩
  exact elsewhere other behind
    (leadsOn other (List.mem_append_right _ (List.mem_cons_of_mem _ behind)) object found)

/-- **A path whose writing has succeeded joins the files.** -/
theorem View.Wrote.put {path text : String} (wrote : view.Wrote before files [path] after)
    {target : view.Object} (leads : view.target? after path = some target)
    (holds : view.Holds after target text) :
    view.Wrote before (files ++ [(path, text)]) [] after := by
  have newest : view.IsLast after (files ++ [(path, text)]) target (path, text) :=
    ⟨files, [], rfl, leads, nofun⟩
  refine ⟨by simpa using wrote.spares, fun file written => ?_⟩
  obtain older | rfl := (List.mem_append.mp written).imp_right List.mem_singleton.mp
  · obtain ⟨object, there, intact⟩ := wrote.holds file older
    refine ⟨object, there, fun _ => ?_⟩
    by_cases same : object = target
    · exact ⟨(path, text), same ▸ newest, same ▸ holds⟩
    · have apart : view.target? after path ≠ some object := fun found =>
        same (Option.some.inj (found.symm.trans leads))
      obtain ⟨last, ⟨earlier, later, rfl, final, elsewhere⟩, kept⟩ :=
        intact (List.forall_mem_singleton.mpr apart)
      refine ⟨last, ⟨earlier, later ++ [(path, text)], by simp, final, ?_⟩, kept⟩
      exact List.forall_mem_append.mpr ⟨elsewhere, List.forall_mem_singleton.mpr apart⟩
  · exact ⟨target, leads, fun _ => ⟨(path, text), newest, holds⟩⟩

/-- Where no two of the paths lead to one object, each file holds its own contents. -/
theorem View.Wrote.holds_own (wrote : view.Wrote before files [] after)
    (apart : (files.map fun file => view.target? after file.1).Nodup) {file : String × String}
    (written : file ∈ files) :
    ∃ object, view.target? after file.1 = some object ∧ view.Holds after object file.2 := by
  obtain ⟨object, leads, intact⟩ := wrote.holds file written
  obtain ⟨last, ⟨earlier, later, rfl, there, _⟩, holds⟩ := intact nofun
  have same : last = file := List.inj_on_of_nodup_map apart
    (List.mem_append_right _ List.mem_cons_self) written (there.trans leads.symm)
  exact ⟨object, leads, same ▸ holds⟩

end Wrote

end SwiftBindings.Files
