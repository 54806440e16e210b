/-
**What a run for a schema leaves behind.**

A run for a schema first reads its configuration and its source, which tells what it is to write
(`planSchema`): the code, the dump and the report. Then it writes them in this order, whatever their paths
are, and the formatter comes last. Nothing is taken back: what was written before a failure stays, and where
two paths lead to the same file, the later text is the one that is kept.

**The main statement.** `schema_outputs`, for any machine whose operations on files do what is documented:
where the run succeeds, each of the three paths leads to what was written there last; where it fails and the
formatter is not the reason, the outputs before the one that is refused are there, and nothing else has
changed but what the path of the refused output leads to.
-/

import SwiftBindings.CommandLine.Program
import SwiftBindings.Proofs.Files.Writing

namespace SwiftBindings.CommandLine

open Files

variable {σ : Type}

/-! ### Outputs in turn -/

/-- A text that is to be written, with its path. -/
structure Output where
  /-- What the text is. -/
  content : String
  /-- Where it is to be written. -/
  path : String
  /-- The text. -/
  text : String

/-- The output as a file. -/
def Output.file (output : Output) : String × String := (output.path, output.text)

/-- In a state of a machine an output is refused, for the reason that the failure gives and with the paths at
which writing has failed. -/
inductive Output.IsRefused (host : Host (StateM σ)) (output : Output) (state : σ) :
    CommandFailure → List String → Prop where
  /-- Its directory is not made. -/
  | directory {directory : String} {fault : Fault} (within : parent? output.path = some directory)
    (fails : (host.makeDirectories directory state).1 = .error fault) :
    IsRefused host output state (.directoryRefused directory fault) []
  /-- Its directory is there, as far as there is one to be made, and the file is not written. -/
  | file {between : σ} {fault : Fault}
    (made : between = state ∨ ∃ directory, parent? output.path = some directory ∧
      host.makeDirectories directory state = (.ok (), between))
    (fails : (host.write output.path output.text between).1 = .error fault) :
    IsRefused host output state (.fileRefused output.content output.path fault) [output.path]

/-- Writes outputs one after the other. -/
def writeOutputs {m : Type → Type} [Monad m] (host : Host m) : List Output → ExceptT CommandFailure m Unit
  | [] => return
  | output :: rest => do
    writeOutput host output.content output.path output.text
    writeOutputs host rest

/-- A failure ends what is done in turn. -/
theorem bind_apply {α β : Type} (first : ExceptT CommandFailure (StateM σ) α)
    (next : α → ExceptT CommandFailure (StateM σ) β) (state : σ) :
    (first >>= next) state =
      match first state with
      | (.ok value, after) => next value after
      | (.error failure, after) => (.error failure, after) := by
  show (ExceptT.bindCont next (first state).1) (first state).2 = _
  rcases first state with ⟨_ | _, after⟩ <;> rfl

/-- An action of the host is done as it is. -/
theorem lift_apply {α : Type} (action : StateM σ α) (state : σ) :
    (liftM action : ExceptT CommandFailure (StateM σ) α) state =
      (.ok (action state).1, (action state).2) :=
  rfl

section Outputs

variable {host : Host (StateM σ)} {view : View σ}

/-- How the writing of an output ends. -/
inductive Output.Ends (host : Host (StateM σ)) (view : View σ) (output : Output) (state : σ) :
    Except CommandFailure Unit × σ → Prop where
  /-- It is refused, and nothing has changed but what is at the paths at which writing has failed. -/
  | refused {failure : CommandFailure} {broken : List String} {after : σ}
    (refuses : output.IsRefused host state failure broken) (spares : view.Spares broken state after) :
    Ends host view output state (.error failure, after)
  /-- It is written: its path leads to an object that holds its text, and nothing else has changed. -/
  | written {object : view.Object} {after : σ} (spares : view.Spares [output.path] state after)
    (leads : view.target? after output.path = some object)
    (holds : view.Holds after object output.text) : Ends host view output state (.ok (), after)

variable (laws : host.Laws view)

include laws

/-- **The writing of an output ends in no other way.** -/
theorem ends_writeOutput (output : Output) (state : σ) :
    output.Ends host view state (writeOutput host output.content output.path output.text state) := by
  -- The file is written last, when its directory is there.
  have writing : ∀ (next : Except Fault Unit → ExceptT CommandFailure (StateM σ) Unit),
      next (.ok ()) = pure () →
      (∀ fault, next (.error fault) = throw (.fileRefused output.content output.path fault)) →
        ∀ between, view.Spares [] state between →
          (between = state ∨ ∃ directory, parent? output.path = some directory ∧
            host.makeDirectories directory state = (.ok (), between)) →
          output.Ends host view state ((liftM (host.write output.path output.text) >>= next) between) := by
    intro next accepts refuses between spares made
    have spared := spares.trans (laws.write output.path output.text between)
    rw [bind_apply, lift_apply]
    dsimp only
    cases result : (host.write output.path output.text between).1 with
    | ok =>
      obtain ⟨object, leads, holds⟩ := laws.written output.path output.text between _
        (Prod.ext result rfl)
      rw [accepts]
      exact .written spared leads holds
    | error fault =>
      rw [refuses]
      exact .refused (.file made result) spared
  rw [writeOutput]
  cases within : (parent? output.path).filter (· != "") with
  | none =>
    exact writing _ rfl (fun _ => rfl) state (View.Spares.refl state) (.inl rfl)
  | some directory =>
    have around := (Option.filter_eq_some_iff.mp within).1
    have spares := laws.makeDirectories directory state
    dsimp only
    rw [bind_apply, lift_apply]
    dsimp only
    cases result : (host.makeDirectories directory state).1 with
    | ok =>
      exact writing _ rfl (fun _ => rfl) _ spares (.inr ⟨directory, around, Prod.ext result rfl⟩)
    | error fault => exact .refused (.directory around result) spares

/-- **Outputs that are written in turn** are all written, or those before the one that is refused. -/
theorem writeOutputs_cases (outputs : List Output) : ∀ (done : List Output) {before between : σ},
    view.Wrote before (done.map Output.file) [] between →
      (∃ after, writeOutputs host outputs between = (.ok (), after) ∧
        view.Wrote before ((done ++ outputs).map Output.file) [] after) ∨
      ∃ failure last after written refused rest broken,
        writeOutputs host outputs between = (.error failure, after) ∧
          outputs = written ++ refused :: rest ∧ refused.IsRefused host last failure broken ∧
            view.Wrote before ((done ++ written).map Output.file) [] last ∧
              view.Wrote before ((done ++ written).map Output.file) broken after := by
  induction outputs with
  | nil =>
    intro done before between wrote
    exact .inl ⟨between, rfl, by rwa [List.append_nil]⟩
  | cons output rest ih =>
    intro done before between wrote
    rw [writeOutputs, bind_apply]
    have ends := ends_writeOutput laws output between
    generalize writeOutput host output.content output.path output.text between = result at ends ⊢
    cases ends with
    | refused refuses spares =>
      refine .inr ⟨_, between, _, [], output, rest, _, rfl, rfl, refuses, ?_, ?_⟩
      · rwa [List.append_nil]
      · rw [List.append_nil]
        exact wrote.spare spares
    | @written _ after spares leads holds =>
      have next : view.Wrote before ((done ++ [output]).map Output.file) [] after := by
        rw [List.map_append]
        exact (wrote.spare spares).put leads holds
      obtain ⟨after, all, final⟩ |
          ⟨failure, last, after, written, refused, rest, broken, stops, rfl, refuses, whole, final⟩ :=
        ih (done ++ [output]) next
      · exact .inl ⟨after, all, by rwa [List.append_assoc] at final⟩
      · rw [List.append_assoc] at whole final
        exact .inr ⟨failure, last, after, output :: written, refused, rest, broken, stops, rfl, refuses,
          whole, final⟩

end Outputs

/-! ### What is to be written -/

/-- What a run for a schema is to do, by its arguments, its configuration and its source. -/
structure SchemaPlan where
  /-- The configuration. -/
  config : Config
  /-- What is generated. -/
  generated : GeneratedSchema
  /-- Where the code is to be written. -/
  out : String
  /-- Where the dump is to be written. -/
  dump : String
  /-- Where the report is to be written. -/
  report : String

/-- The outputs of a run for a schema, in their order. -/
def SchemaPlan.outputs (plan : SchemaPlan) : List Output :=
  [⟨"Swift bindings", plan.out, plan.generated.code⟩, ⟨"schema IR", plan.dump, plan.generated.dump⟩,
    ⟨"usage report", plan.report, plan.generated.reportText⟩]

/-- What a run for a schema is to do, as it reads its configuration and its source. -/
def planSchema {m : Type → Type} [Monad m] (host : Host m) (arguments : SchemaArguments) :
    ExceptT CommandFailure m SchemaPlan := do
  let config ← loadConfig host arguments.config
  let input := (arguments.input.or config.schema.input).getD "convex/schema.ts"
  let out := (arguments.out.or config.schema.out).getD "Generated/ConvexSchema.swift"
  let dump := (arguments.dump.or config.schema.dump).getD (sibling out "ir.json")
  let report := (arguments.report.or config.schema.report).getD (sibling out "report.json")
  let source ← readSource host input
  match generateSchema input source with
  | .error failure => throw (.sourceRefused input failure)
  | .ok generated => return ⟨config, generated, out, dump, report⟩

/-- What is done when everything is written: the formatter is run, and the run is told about. -/
def SchemaPlan.finish {m : Type → Type} [Monad m] (host : Host m) (formatted : Option Bool)
    (plan : SchemaPlan) : ExceptT CommandFailure m String := do
  if let some command := chosenFormatter? formatted plan.config.format then
    runFormatter host plan.out command
  return "Generated " ++ toString plan.generated.schema.tables.length ++ " tables into " ++ plan.out ++
    " (" ++ toString plan.generated.report.issues.length ++ " usage issues)\n"

/-- The formatter that is run at the end, if one is, leaves the files alone. -/
def SchemaPlan.LeavesFiles (plan : SchemaPlan) (host : Host (StateM σ)) (view : View σ)
    (formatted : Option Bool) : Prop :=
  ∀ program arguments, chosenFormatter? formatted plan.config.format = some (program :: arguments) →
    ∀ state, view.Same state (host.format program (arguments ++ [plan.out]) state).2

/-- The formatter is the reason for the failure. -/
def CommandFailure.isOfFormatter : CommandFailure → Bool
  | .noFormatter | .formatterMissing _ | .formatterFailed _ _ _ _ => true
  | _ => false

/-- **A run for a schema writes its outputs in turn** once it knows what it is to do. -/
theorem runSchema_eq {m : Type → Type} [Monad m] [LawfulMonad m] (host : Host m)
    (arguments : SchemaArguments) :
    runSchema host arguments = (do
      let plan ← planSchema host arguments
      writeOutputs host plan.outputs
      plan.finish host arguments.formatted) := by
  simp only [runSchema, planSchema, bind_assoc]
  refine bind_congr fun config => bind_congr fun source => ?_
  cases generateSchema _ source with
  | error failure => exact ExceptT.ext (by simp)
  | ok generated =>
    simp only [pure_bind, SchemaPlan.outputs, writeOutputs, bind_assoc]
    rfl

section Plans

variable {host : Host (StateM σ)} {view : View σ}

section Reading

variable (laws : host.Laws view)

include laws

theorem readConfig_same (path : String) (state : σ) :
    view.Same state (readConfig host path state).2 := by
  have same := laws.read path state
  rw [readConfig, bind_apply, lift_apply]
  dsimp only
  cases (host.read path state).1 with
  | error fault => exact same
  | ok text =>
    dsimp only
    cases Config.read? text <;> exact same

theorem loadConfig_same (named : Option String) (state : σ) :
    view.Same state (loadConfig host named state).2 := by
  cases named with
  | some path =>
    have same := laws.occupied path state
    rw [loadConfig, bind_apply, lift_apply]
    dsimp only
    cases (host.occupied path state).1 with
    | true => exact same.trans (readConfig_same laws path _)
    | false => exact same
  | none =>
    have same := laws.occupied defaultConfigPath state
    rw [loadConfig, bind_apply, lift_apply]
    dsimp only
    cases (host.occupied defaultConfigPath state).1 with
    | true => exact same.trans (readConfig_same laws defaultConfigPath _)
    | false => exact same

theorem readSource_same (path : String) (state : σ) :
    view.Same state (readSource host path state).2 := by
  have same := laws.read path state
  rw [readSource, bind_apply, lift_apply]
  dsimp only
  cases (host.read path state).1 <;> exact same

/-- **To find out what is to be written changes nothing.** -/
theorem planSchema_same (arguments : SchemaArguments) (state : σ) :
    view.Same state (planSchema host arguments state).2 := by
  have first := loadConfig_same laws arguments.config state
  rw [planSchema, bind_apply]
  generalize loadConfig host arguments.config state = loaded at first ⊢
  obtain ⟨_ | config, between⟩ := loaded
  · exact first
  · dsimp only at first ⊢
    have second := readSource_same laws
      ((arguments.input.or config.schema.input).getD "convex/schema.ts") between
    rw [bind_apply]
    generalize readSource host _ between = read at second ⊢
    obtain ⟨_ | source, after⟩ := read
    · exact first.trans second
    · dsimp only at second ⊢
      cases generateSchema _ source <;> exact first.trans second

end Reading

/-- Running a formatter changes what the formatter changes, and fails because of the formatter only. -/
theorem runFormatter_cases (host : Host (StateM σ)) (path : String) (command : List String) (state : σ) :
    (∃ program arguments, command = program :: arguments ∧
      runFormatter host path command state =
        (.ok (), (host.format program (arguments ++ [path]) state).2)) ∨
      ∃ failure after, runFormatter host path command state = (.error failure, after) ∧
        failure.isOfFormatter = true := by
  cases command with
  | nil => exact .inr ⟨.noFormatter, state, rfl, rfl⟩
  | cons program arguments =>
    rw [runFormatter, bind_apply, lift_apply]
    dsimp only
    cases (host.format program (arguments ++ [path]) state).1 with
    | done => exact .inl ⟨program, arguments, rfl, rfl⟩
    | missing => exact .inr ⟨_, _, rfl, rfl⟩
    | failed status text => exact .inr ⟨_, _, rfl, rfl⟩

/-- A run that has written everything succeeds, or it fails because of the formatter. -/
theorem SchemaPlan.finish_cases (plan : SchemaPlan) (host : Host (StateM σ)) (view : View σ)
    (formatted : Option Bool) (state : σ) :
    (∃ text after, plan.finish host formatted state = (.ok text, after) ∧
      (plan.LeavesFiles host view formatted → view.Same state after)) ∨
      ∃ failure after, plan.finish host formatted state = (.error failure, after) ∧
        failure.isOfFormatter = true := by
  rw [SchemaPlan.finish]
  cases chosen : chosenFormatter? formatted plan.config.format with
  | none => exact .inl ⟨_, state, rfl, fun _ => View.Same.refl state⟩
  | some command =>
    dsimp only
    rw [bind_apply]
    obtain ⟨program, arguments, rfl, runs⟩ | ⟨failure, after, fails, reason⟩ :=
      runFormatter_cases host plan.out command state
    · rw [runs]
      exact .inl ⟨_, _, rfl, fun leaves => leaves program arguments chosen state⟩
    · rw [fails]
      exact .inr ⟨failure, after, rfl, reason⟩

end Plans

/-! ### The main statement -/

/-- What a run for a schema leaves behind, by how it ends. -/
structure LeavesOutputs (host : Host (StateM σ)) (view : View σ) (settings : SchemaArguments)
    (start : σ) (outcome : Outcome) (final : σ) : Prop where
  /-- A run that succeeds has written its outputs in turn, unless the formatter has changed them; with
  paths that lead to different objects, each object holds its own text. -/
  succeeds : outcome.status = 0 → ∃ plan, (planSchema host settings start).1 = .ok plan ∧
    (plan.LeavesFiles host view settings.formatted →
      view.Wrote start (plan.outputs.map Output.file) [] final ∧
        ((plan.outputs.map fun output => view.target? final output.path).Nodup →
          ∀ output ∈ plan.outputs, ∃ object, view.target? final output.path = some object ∧
            view.Holds final object output.text))
  /-- A run that fails has changed nothing, as it knows nothing to write, or it has written the outputs before
  the one that is refused, and has changed nothing else but what is where writing has failed. -/
  fails : ∀ failure, outcome = .failed failure → failure.isOfFormatter = false →
    (planSchema host settings start).1 = .error failure ∧ view.Same start final ∨
      ∃ plan written refused rest broken last, (planSchema host settings start).1 = .ok plan ∧
        plan.outputs = written ++ refused :: rest ∧ refused.IsRefused host last failure broken ∧
          view.Wrote start (written.map Output.file) [] last ∧
            view.Wrote start (written.map Output.file) broken final

/-- **Each run for a schema leaves its outputs behind, in turn**, up to one that is refused, on any machine
whose operations on files do what is documented. -/
theorem schema_outputs {host : Host (StateM σ)} {view : View σ} (laws : host.Laws view)
    {arguments : List String} {settings : SchemaArguments}
    (asked : Request.ofArguments arguments = .ok (.schema settings)) (start : σ) :
    LeavesOutputs host view settings start (run host arguments start).1
      (run host arguments start).2 := by
  have runs : run host arguments start =
      (.ofResult (runSchema host settings start).1, (runSchema host settings start).2) := by
    rw [run, asked]
    rfl
  have same := planSchema_same laws settings start
  rw [runs, runSchema_eq, bind_apply]
  cases planned : planSchema host settings start with
  | mk result between =>
    rw [planned] at same
    cases result with
    | error failure =>
      exact ⟨nofun, fun failure' equal _ => .inl ⟨by cases equal; rw [planned], same⟩⟩
    | ok plan =>
      dsimp only
      rw [bind_apply]
      obtain ⟨after, all, wrote⟩ |
          ⟨failure, last, after, written, refused, rest, broken, stops, outputs, refuses, whole, wrote⟩ :=
        writeOutputs_cases laws plan.outputs [] (.start (same.spares []))
      · rw [all]
        dsimp only
        obtain ⟨text, final, tells, leaves⟩ | ⟨failure, final, fails, reason⟩ :=
          plan.finish_cases host view settings.formatted after
        · rw [tells]
          refine ⟨fun _ => ⟨plan, by rw [planned], fun alone => ?_⟩, nofun⟩
          have finally_ := wrote.spare ((leaves alone).spares [])
          refine ⟨finally_, fun apart output listed => ?_⟩
          exact finally_.holds_own (by rwa [List.map_map]) (List.mem_map_of_mem listed)
        · rw [fails]
          refine ⟨nofun, fun failure' equal other => ?_⟩
          cases equal
          rw [reason] at other
          cases other
      · rw [stops]
        refine ⟨nofun, fun failure' equal _ => ?_⟩
        cases equal
        exact .inr ⟨plan, written, refused, rest, broken, last, by rw [planned], outputs, refuses, whole,
          wrote⟩

/-! ### Runs -/

/-- A directory with a schema that has no tables. -/
def bareTree : Tree := .ofFiles [("convex/schema.ts", "export default defineSchema({});")]

theorem exists_ok_of_map {α β : Type} {result : Except CommandFailure α} {seen : α → β} {value : β}
    (maps : result.toOption.map seen = some value) : ∃ plan, result = .ok plan ∧ seen plan = value := by
  cases result with
  | error failure => cases maps
  | ok plan => exact ⟨plan, rfl, Option.some.inj maps⟩

/-- Its three outputs go to different files, and each file holds its own text. -/
theorem bareSchema_outputs :
    ∃ plan, (planSchema Tree.host ⟨none, none, none, none, none, none⟩ bareTree).1 = .ok plan ∧
      ∀ output ∈ plan.outputs, ∃ location : Location,
        Tree.view.target? (run Tree.host ["schema"] bareTree).2 output.path = some location ∧
          (run Tree.host ["schema"] bareTree).2.lookup? location = some (.file output.text) := by
  obtain ⟨plan, planned, leaves⟩ := (schema_outputs Tree.laws
    (show Request.ofArguments ["schema"] = .ok (.schema ⟨none, none, none, none, none, none⟩) by
      decide +kernel) bareTree).succeeds (by decide +kernel)
  obtain ⟨-, own⟩ := leaves fun _ _ _ tree => View.Same.refl tree
  have apart : (planSchema Tree.host ⟨none, none, none, none, none, none⟩ bareTree).1.toOption.map
      (fun plan => decide (plan.outputs.map fun output =>
        ((run Tree.host ["schema"] bareTree).2.locate output.path).toOption).Nodup) = some true := by
    decide +kernel
  rw [planned] at apart
  have distinct : (plan.outputs.map fun output =>
      ((run Tree.host ["schema"] bareTree).2.locate output.path).toOption).Nodup :=
    of_decide_eq_true (Option.some.inj apart)
  refine ⟨plan, planned, fun output listed => ?_⟩
  obtain ⟨location, leads, holds⟩ := own distinct output listed
  exact ⟨location, leads, Tree.contents?_eq_some.mp (holds trivial)⟩

/-- What it would mean that a run is all or nothing: where it succeeds, the path of each output leads to an
object that holds its text, and where it fails and the formatter is not the reason, no output is created or
changed. -/
def IsAllOrNothing (host : Host (StateM σ)) (view : View σ) (arguments : List String) (start : σ) :
    Prop :=
  ∀ settings, Request.ofArguments arguments = .ok (.schema settings) →
    ((run host arguments start).1.status = 0 →
      ∃ plan, (planSchema host settings start).1 = .ok plan ∧ ∀ output ∈ plan.outputs, ∃ object,
        view.target? (run host arguments start).2 output.path = some object ∧
          view.Holds (run host arguments start).2 object output.text) ∧
    ∀ failure, (run host arguments start).1 = .failed failure → failure.isOfFormatter = false →
      ∀ plan, (planSchema host settings start).1 = .ok plan → ∀ output ∈ plan.outputs, ∀ object,
        view.target? (run host arguments start).2 output.path = some object →
          view.contents? (run host arguments start).2 object = view.contents? start object

/-- Where the code is written unless told otherwise. -/
def codeLocation : Location := scratch ++ ["Generated", "ConvexSchema.swift"]

/-- The code stays where the report is refused. -/
theorem refusedReport_keeps_code :
    ¬IsAllOrNothing Tree.host Tree.view ["schema", "--report-out", "convex"] bareTree := by
  intro whole
  let final := (run Tree.host ["schema", "--report-out", "convex"] bareTree).2
  have refused : (run Tree.host ["schema", "--report-out", "convex"] bareTree).1 =
      .failed (.fileRefused "usage report" "convex" .isDirectory) := by decide +kernel
  obtain ⟨plan, planned, out⟩ := exists_ok_of_map (show (planSchema Tree.host
    ⟨none, none, none, some "convex", none, none⟩ bareTree).1.toOption.map SchemaPlan.out =
      some "Generated/ConvexSchema.swift" by decide +kernel)
  have leads : Tree.view.target? final plan.out = some codeLocation := by
    rw [out]
    exact Tree.target?_eq_some.mpr (by decide +kernel)
  have kept := (whole _ (by decide +kernel)).2 _ refused rfl plan planned _ List.mem_cons_self _ leads
  have absent := Tree.contents?_eq_none.mp (kept.trans (rfl : Tree.view.contents? bareTree _ = none))
  have written : (final.lookup? codeLocation).any (fun entry => entry != .directory) = true := by
    decide +kernel
  rcases found : final.lookup? codeLocation with _ | _ | contents
  · rw [found] at written
    cases written
  · rw [found] at written
    cases written
  · exact absent contents found

/-- The code is lost where the dump goes to the same file. -/
theorem sharedPath_loses_code : ¬IsAllOrNothing Tree.host Tree.view
    ["schema", "--ir-out", "Generated/ConvexSchema.swift"] bareTree := by
  intro whole
  let final := (run Tree.host ["schema", "--ir-out", "Generated/ConvexSchema.swift"] bareTree).2
  obtain ⟨plan, planned, own⟩ := (whole
    ⟨none, none, some "Generated/ConvexSchema.swift", none, none, none⟩ (by decide +kernel)).1
      (by decide +kernel)
  have lost : (planSchema Tree.host
      ⟨none, none, some "Generated/ConvexSchema.swift", none, none, none⟩ bareTree).1.toOption.map
        (fun plan => (plan.out, decide (final.lookup? codeLocation = some (.file plan.generated.code)))) =
      some ("Generated/ConvexSchema.swift", false) := by decide +kernel
  rw [planned] at lost
  obtain ⟨out, other⟩ := Prod.mk.inj (Option.some.inj lost)
  obtain ⟨object, leads, holds⟩ := own _ List.mem_cons_self
  have there : Tree.view.target? final plan.out = some codeLocation := by
    rw [out]
    exact Tree.target?_eq_some.mpr (by decide +kernel)
  have same : object = codeLocation := Option.some.inj (leads.symm.trans there)
  rw [same] at holds
  exact of_decide_eq_false other (Tree.contents?_eq_some.mp (holds trivial))

/-- A directory with the schema without tables, and with code from before. -/
def oldTree : Tree :=
  .ofFiles [("convex/schema.ts", "export default defineSchema({});"),
    ("Generated/ConvexSchema.swift", "struct Old {}")]

/-- The code from before is lost where the disk is full. -/
theorem fullDisk_loses_code : ¬IsAllOrNothing Tree.fullHost Tree.view ["schema"] oldTree := by
  intro whole
  have refused : (run Tree.fullHost ["schema"] oldTree).1 = .failed (.fileRefused "Swift bindings"
      "Generated/ConvexSchema.swift" (.other "No space left on device (os error 28)")) := by
    decide +kernel
  obtain ⟨plan, planned, out⟩ := exists_ok_of_map (show (planSchema Tree.fullHost
    ⟨none, none, none, none, none, none⟩ oldTree).1.toOption.map SchemaPlan.out =
      some "Generated/ConvexSchema.swift" by decide +kernel)
  have leads : Tree.view.target? (run Tree.fullHost ["schema"] oldTree).2 plan.out =
      some codeLocation := by
    rw [out]
    exact Tree.target?_eq_some.mpr (by decide +kernel)
  have kept := (whole _ (by decide +kernel)).2 _ refused rfl plan planned _ List.mem_cons_self _ leads
  have old : oldTree.lookup? codeLocation = some (.file "struct Old {}") := by decide +kernel
  exact absurd (Tree.contents?_eq_some.mp (kept.trans (Tree.contents?_eq_some.mpr old)))
    (by decide +kernel)

/-- A run for a schema is not all or nothing: not where an output is refused, not where two paths lead to one
file, and not where the disk is full. -/
theorem not_isAllOrNothing :
    ¬IsAllOrNothing Tree.host Tree.view ["schema", "--report-out", "convex"] bareTree ∧
      ¬IsAllOrNothing Tree.host Tree.view ["schema", "--ir-out", "Generated/ConvexSchema.swift"]
        bareTree ∧
      ¬IsAllOrNothing Tree.fullHost Tree.view ["schema"] oldTree :=
  ⟨refusedReport_keeps_code, sharedPath_loses_code, fullDisk_loses_code⟩

end SwiftBindings.CommandLine
