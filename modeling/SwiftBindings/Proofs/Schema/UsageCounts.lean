/-
**What the usage report counts.**

A site is a validator together with the way to it: from a table to one of its fields, and on to the
elements of lists, the values of mappings and the fields of objects. The keys of mappings are not on the
way. `Schema.sites` lists all sites in the order in which a reader of the schema comes upon them.

The survey takes the same way, but it stops at a mapping of untyped values, where it counts the value and
reports the mapping in its place. Its names are those of the sites all the same
(`Validator.names_survey`), and its issues are those of the untyped sites (`Validator.issues_survey`).

**The main statement.** `usage_counts_sites`: the report counts each kind as often as there are sites of
the kind and each leave as often as there are fields that have it, and it has one issue for each untyped
site, in order. The report on further tables adds its counts and puts its issues behind.
-/

import Mathlib.Data.String.Basic
import SwiftBindings.Proofs.Repetitions
import SwiftBindings.Proofs.Schema.UntypedValues

namespace SwiftBindings

/-! ### Sites -/

/-- One step of the way into a validator. -/
inductive Descent where
  /-- To a field, of a table or of an object. -/
  | field (field : Field)
  /-- To the elements of a list. -/
  | element
  /-- To the values of a mapping. -/
  | value

/-- A validator of a table, with the way to it. -/
structure Site where
  /-- Name of the table. -/
  table : String
  /-- The steps from the table on. -/
  way : List Descent
  /-- What kind of value is accepted there. -/
  shape : Shape

mutual

/-- The sites within a shape that the way leads to. -/
def Shape.sitesWithin (table : String) (way : List Descent) : Shape → List Site
  | .array element => element.sites table (way ++ [.element])
  | .record _ value => value.sites table (way ++ [.value])
  | .object fields => Field.allSites table way fields
  | .string | .number | .boolean | .id _ | .enumeration _ | .any | .unknown _ _ => []

/-- The site of a validator that the way leads to, then those within it. -/
def Validator.sites (table : String) (way : List Descent) : Validator → List Site
  | ⟨shape, _, _⟩ => ⟨table, way, shape⟩ :: shape.sitesWithin table way

/-- The sites of fields, in order. -/
def Field.allSites (table : String) (way : List Descent) : List Field → List Site
  | [] => []
  | ⟨name, optional, nullable, schema⟩ :: rest =>
    schema.sites table (way ++ [.field ⟨name, optional, nullable, schema⟩]) ++
      Field.allSites table way rest

end

/-- The sites of a table. -/
def Table.sites (table : Table) : List Site :=
  Field.allSites table.name [] table.fields

/-- The sites of all tables. -/
def Schema.sites (schema : Schema) : List Site :=
  schema.tables.flatMap Table.sites

/-- The field that a way ends in. -/
def lastField? (way : List Descent) : Option Field :=
  match way.getLast? with
  | some (.field field) => some field
  | _ => none

/-- The fields of all tables, at any depth. -/
def Schema.allFields (schema : Schema) : List Field :=
  schema.sites.filterMap fun site => lastField? site.way

/-- A path with one more step behind it. -/
def Descent.behind (path : String) : Descent → String
  | .field entered => fieldPath path entered.name
  | .element => path ++ "[]"
  | .value => path ++ "\x7b\x7d"

/-- A way in words. -/
def pathOf (way : List Descent) : String :=
  way.foldl Descent.behind ""

/-- What is known about an untyped value. -/
def Shape.reason : Shape → String
  | .unknown text gap => gap.label ++ ": " ++ text
  | shape => shape.kindName

/-- The issue of an untyped site. The values of a mapping are reported at the mapping. -/
def Site.issue (site : Site) : Issue :=
  match site.way.getLast? with
  | some .value => ⟨site.table, pathOf site.way.dropLast, "record with untyped value"⟩
  | _ => ⟨site.table, pathOf site.way, site.shape.reason⟩

/-- The issues of the untyped sites among some, in order. -/
def untypedIssues (sites : List Site) : List Issue :=
  (sites.filter fun site => site.shape.isUntyped).map Site.issue

/-! ### Ways -/

@[simp] theorem lastField?_field (way : List Descent) (field : Field) :
    lastField? (way ++ [.field field]) = some field := by
  rw [lastField?, List.getLast?_concat]

@[simp] theorem lastField?_element (way : List Descent) :
    lastField? (way ++ [.element]) = none := by
  rw [lastField?, List.getLast?_concat]

@[simp] theorem lastField?_value (way : List Descent) :
    lastField? (way ++ [.value]) = none := by
  rw [lastField?, List.getLast?_concat]

@[simp] theorem pathOf_concat (way : List Descent) (descent : Descent) :
    pathOf (way ++ [descent]) = descent.behind (pathOf way) := by
  rw [pathOf, List.foldl_concat, pathOf]

theorem Shape.sitesWithin_of_isUntyped {shape : Shape} (untyped : shape.isUntyped = true)
    (table : String) (way : List Descent) : shape.sitesWithin table way = [] := by
  cases shape with
  | any | unknown => rw [Shape.sitesWithin]
  | _ => cases untyped

/-- The values of a mapping are reported at the mapping. -/
theorem Site.issue_value (table : String) (way : List Descent) (shape : Shape) :
    (Site.mk table (way ++ [.value]) shape).issue =
      ⟨table, pathOf way, "record with untyped value"⟩ := by
  rw [Site.issue]
  simp only [List.getLast?_concat, List.dropLast_concat]

/-- All other sites are reported where they are. -/
theorem Site.issue_of_ne {site : Site} (elsewhere : site.way.getLast? ≠ some .value) :
    site.issue = ⟨site.table, pathOf site.way, site.shape.reason⟩ := by
  rw [Site.issue]
  split
  · rename_i value
    exact absurd value elsewhere
  · rfl

theorem untypedIssues_cons_of_typed {site : Site} (typed : site.shape.isUntyped = false)
    (sites : List Site) : untypedIssues (site :: sites) = untypedIssues sites := by
  rw [untypedIssues, List.filter_cons_of_neg (Bool.not_eq_true _ ▸ typed), untypedIssues]

theorem untypedIssues_singleton {site : Site} (untyped : site.shape.isUntyped = true) :
    untypedIssues [site] = [site.issue] := by
  have kept : [site].filter (fun site => site.shape.isUntyped) = [site] :=
    List.filter_eq_self.mpr (List.forall_mem_singleton.mpr untyped)
  rw [untypedIssues, kept, List.map_singleton]

theorem untypedIssues_append (first second : List Site) :
    untypedIssues (first ++ second) = untypedIssues first ++ untypedIssues second := by
  rw [untypedIssues, List.filter_append, List.map_append, untypedIssues, untypedIssues]

/-! ### Names -/

/-- The leaves of the field that a way ends in. -/
def leavesAt (way : List Descent) : List String :=
  (lastField? way).elim [] Field.leaveNames

/-- The names that stand for a site: the leaves of its field, and its kind. -/
def Site.names (site : Site) : List String :=
  leavesAt site.way ++ [site.shape.kindName]

@[simp] theorem Survey.names_append (first second : Survey) :
    (first ++ second).names = first.names ++ second.names := rfl

@[simp] theorem Survey.names_ofNames (names : List String) : (Survey.ofNames names).names = names := rfl

section Survey

variable (table : String)

mutual

/-- The survey of a shape has the names of the sites within it. -/
theorem Shape.names_survey (way : List Descent) (path : String) : ∀ shape : Shape,
    (shape.survey table path).names = (shape.sitesWithin table way).flatMap Site.names
  | .any | .unknown _ _ | .string | .number | .boolean | .id _ | .enumeration _ => by
    rw [Shape.sitesWithin]
    rfl
  | .array element => by
    have inner := element.names_survey (way ++ [.element]) (path ++ "[]")
    rw [leavesAt, lastField?_element] at inner
    rw [Shape.survey, Shape.sitesWithin, ← inner]
    rfl
  | .record _ value => by
    have inner := value.names_survey (way ++ [.value]) (path ++ "\x7b\x7d")
    rw [leavesAt, lastField?_value] at inner
    rw [Shape.survey, Shape.sitesWithin, ← inner]
    split
    · -- The value is counted in its place, and an untyped value has no site within it.
      rename_i untyped
      obtain ⟨shape, _, _⟩ := value
      have within := shape.names_survey (way ++ [.value]) (path ++ "\x7b\x7d")
      rw [Shape.sitesWithin_of_isUntyped untyped] at within
      rw [Validator.survey, Survey.names_append, Survey.names_append, within]
      rfl
    · rfl
  | .object fields => by
    rw [Shape.survey, Shape.sitesWithin]
    exact Field.names_surveyAll way path fields

/-- The survey of a validator, with the leaves of its field before it, has the names of its sites. -/
theorem Validator.names_survey (way : List Descent) (path : String) : ∀ validator : Validator,
    leavesAt way ++ (validator.survey table path).names =
      (validator.sites table way).flatMap Site.names
  | ⟨shape, _, _⟩ => by
    rw [Validator.survey, Validator.sites, List.flatMap_cons, Survey.names_append,
      Survey.names_ofNames, shape.names_survey way path, Site.names, List.append_assoc]

/-- The survey of fields has the names of their sites. -/
theorem Field.names_surveyAll (way : List Descent) (path : String) : ∀ fields : List Field,
    (Field.surveyAll table path fields).names = (Field.allSites table way fields).flatMap Site.names
  | [] => rfl
  | ⟨name, optional, nullable, schema⟩ :: rest => by
    have first := schema.names_survey (way ++ [.field ⟨name, optional, nullable, schema⟩])
      (fieldPath path name)
    rw [leavesAt, lastField?_field] at first
    rw [Field.surveyAll, Field.allSites, List.flatMap_append, ← first,
      ← Field.names_surveyAll way path rest]
    rfl

end

/-! ### Issues -/

mutual

/-- The survey of a shape that is not untyped itself has the issues of the untyped sites within it. -/
theorem Shape.issues_survey (way : List Descent) : ∀ shape : Shape, shape.isUntyped = false →
    (shape.survey table (pathOf way)).issues = untypedIssues (shape.sitesWithin table way)
  | .any | .unknown _ _ => fun typed => by cases typed
  | .string | .number | .boolean | .id _ | .enumeration _ => fun _ => by
    rw [Shape.sitesWithin]
    rfl
  | .array element => fun _ => by
    have inner := element.issues_survey (way ++ [.element]) (.inl (by simp))
    rw [pathOf_concat, Descent.behind] at inner
    rw [Shape.survey, Shape.sitesWithin]
    exact inner
  | .record _ value => fun _ => by
    rw [Shape.survey, Shape.sitesWithin]
    split
    · -- The mapping is reported in the place of its value.
      rename_i untyped
      obtain ⟨shape, _, _⟩ := value
      rw [Validator.sites, Shape.sitesWithin_of_isUntyped untyped, untypedIssues_singleton untyped,
        Site.issue_value]
      rfl
    · rename_i typed
      have inner := value.issues_survey (way ++ [.value]) (.inr (Bool.eq_false_iff.mpr typed))
      rw [pathOf_concat, Descent.behind] at inner
      exact inner
  | .object fields => fun _ => by
    rw [Shape.survey, Shape.sitesWithin]
    exact Field.issues_surveyAll way fields

/-- The survey of a validator has the issues of its untyped sites, unless it is itself the untyped value
of a mapping. -/
theorem Validator.issues_survey (way : List Descent) : ∀ validator : Validator,
    way.getLast? ≠ some .value ∨ validator.shape.isUntyped = false →
      (validator.survey table (pathOf way)).issues = untypedIssues (validator.sites table way)
  | ⟨shape, _, _⟩ => fun own => by
    rw [Validator.survey, Validator.sites, Survey.issues_append, Survey.issues_ofNames,
      List.nil_append]
    cases untyped : shape.isUntyped with
    | false =>
      rw [shape.issues_survey way untyped, untypedIssues_cons_of_typed untyped]
    | true =>
      have elsewhere := own.resolve_right (Bool.not_eq_false _ ▸ untyped)
      rw [Shape.sitesWithin_of_isUntyped untyped, untypedIssues_singleton untyped,
        Site.issue_of_ne elsewhere]
      cases shape with
      | any | unknown => rfl
      | _ => cases untyped

/-- The survey of fields has the issues of their untyped sites. -/
theorem Field.issues_surveyAll (way : List Descent) : ∀ fields : List Field,
    (Field.surveyAll table (pathOf way) fields).issues =
      untypedIssues (Field.allSites table way fields)
  | [] => rfl
  | ⟨name, optional, nullable, schema⟩ :: rest => by
    have first := schema.issues_survey (way ++ [.field ⟨name, optional, nullable, schema⟩])
      (.inl (by simp))
    rw [pathOf_concat, Descent.behind] at first
    rw [Field.surveyAll, Field.allSites, untypedIssues_append, ← first,
      ← Field.issues_surveyAll way rest, Survey.issues_append, Survey.issues_append,
      Survey.issues_ofNames, List.nil_append]

end

end Survey

/-! ### The survey of a schema -/

/-- The names that a survey finds are those of all sites, and its issues those of the untyped ones. -/
theorem Schema.survey_eq (schema : Schema) :
    schema.survey = ⟨schema.sites.flatMap Site.names, untypedIssues schema.sites⟩ := by
  obtain ⟨source, tables⟩ := schema
  rw [Schema.survey, Schema.sites]
  induction tables using List.reverseRecOn with
  | nil => rfl
  | append_singleton tables table ih =>
    rw [List.foldl_concat, ih, List.flatMap_append, List.flatMap_singleton, List.flatMap_append,
      untypedIssues_append, Table.sites, ← Field.names_surveyAll table.name [] "" table.fields,
      ← Field.issues_surveyAll table.name [] table.fields]
    rfl

/-! ### Counting -/

/-- How often the report counts a name. -/
def UsageReport.count (report : UsageReport) (name : String) : Nat :=
  (report.kinds.lookup name).getD 0

/-- A tally finds each name with the number of its occurrences. -/
theorem lookup_tally (names : List String) (name : String) :
    ((tally names).lookup name).getD 0 = names.count name := by
  rw [tally]
  by_cases member : name ∈ names
  · rw [List.lookup_graph (fun name => names.count name)
      (List.mem_mergeSort.mpr (List.mem_eraseDups.mpr member)), Option.getD_some]
  · rw [List.lookup_eq_none_iff.mpr, List.count_eq_zero_of_not_mem member, Option.getD_none]
    intro entry inside
    obtain ⟨other, held, rfl⟩ := List.mem_map.mp inside
    refine bne_iff_ne.mpr fun same => member ?_
    exact same ▸ List.mem_eraseDups.mp (List.mem_mergeSort.mp held)

/-- The names of a tally increase. -/
theorem increasing_tally (names : List String) : ((tally names).map Prod.fst).Pairwise (· < ·) := by
  have sorted : (names.eraseDups.mergeSort fun first second => decide (first ≤ second)).Pairwise
      fun first second => decide (first ≤ second) = true :=
    List.pairwise_mergeSort (by simpa using fun _ _ _ => le_trans) (by simpa using le_total) _
  have distinct := (List.mergeSort_perm names.eraseDups fun first second =>
    decide (first ≤ second)).nodup_iff.mpr (nodup_eraseDups names)
  rw [tally, List.map_map]
  refine (List.map_id _).symm ▸ (sorted.and distinct).imp fun apart => ?_
  exact lt_of_le_of_ne (of_decide_eq_true apart.1) apart.2

/-- A name of a tally occurs, as often as the tally says. -/
theorem mem_tally {names : List String} {entry : String × Nat} (inside : entry ∈ tally names) :
    entry.1 ∈ names ∧ entry.2 = names.count entry.1 := by
  obtain ⟨name, held, rfl⟩ := List.mem_map.mp inside
  exact ⟨List.mem_eraseDups.mp (List.mem_mergeSort.mp held), rfl⟩

/-- A name is counted once for each site that has it, where no site has it twice. -/
theorem count_flatMap_names {name : String} {holds : Site → Bool} (sites : List Site)
    (once : ∀ site ∈ sites, site.names.count name = if holds site then 1 else 0) :
    (sites.flatMap Site.names).count name = sites.countP holds := by
  induction sites with
  | nil => rfl
  | cons site rest ih =>
    rw [List.flatMap_cons, List.count_append, List.countP_cons,
      once site List.mem_cons_self, ih fun other member => once other (List.mem_cons_of_mem _ member),
      Nat.add_comm]

/-! ### Kinds and leaves -/

/-- The names of the leaves. -/
def leaveNames : List String := ["optional", "nullable"]

theorem Shape.kindName_not_mem_leaveNames (shape : Shape) : shape.kindName ∉ leaveNames := by
  cases shape <;> simp [Shape.kindName, leaveNames]

theorem leavesAt_subset (way : List Descent) : leavesAt way ⊆ leaveNames := by
  rw [leavesAt]
  cases lastField? way with
  | none => exact List.nil_subset _
  | some field =>
    rw [Option.elim_some, Field.leaveNames]
    cases field.optional <;> cases field.nullable <;> simp [leaveNames]

/-- A site has its own kind once and no other kind. -/
theorem Site.count_names_kind (site : Site) (shape : Shape) :
    site.names.count shape.kindName = if site.shape.kindName == shape.kindName then 1 else 0 := by
  have absent : shape.kindName ∉ leavesAt site.way :=
    fun member => shape.kindName_not_mem_leaveNames (leavesAt_subset _ member)
  rw [Site.names, List.count_append, List.count_eq_zero_of_not_mem absent, Nat.zero_add,
    List.count_singleton]

/-- A site has a leave once where its field does. -/
theorem Site.count_names_leave {leave : String} {flag : Field → Bool} (known : leave ∈ leaveNames)
    (named : ∀ field : Field, field.leaveNames.count leave = if flag field then 1 else 0)
    (site : Site) : site.names.count leave =
      if ((lastField? site.way).map flag).getD false then 1 else 0 := by
  have apart : leave ∉ [site.shape.kindName] :=
    fun member => site.shape.kindName_not_mem_leaveNames (List.mem_singleton.mp member ▸ known)
  rw [Site.names, List.count_append, List.count_eq_zero_of_not_mem apart, Nat.add_zero, leavesAt]
  cases lastField? site.way with
  | none => rfl
  | some field => exact named field

theorem Schema.count_usage (schema : Schema) (name : String) :
    schema.usage.count name = (schema.sites.flatMap Site.names).count name := by
  rw [UsageReport.count, Schema.usage, lookup_tally, schema.survey_eq]

theorem Schema.count_usage_kind (schema : Schema) (shape : Shape) :
    schema.usage.count shape.kindName =
      schema.sites.countP fun site => site.shape.kindName == shape.kindName := by
  rw [schema.count_usage, count_flatMap_names _ fun site _ => site.count_names_kind shape]

theorem Schema.count_usage_leave (schema : Schema) {leave : String} {flag : Field → Bool}
    (known : leave ∈ leaveNames)
    (named : ∀ field : Field, field.leaveNames.count leave = if flag field then 1 else 0) :
    schema.usage.count leave = schema.allFields.countP flag := by
  rw [schema.count_usage, count_flatMap_names _ fun site _ => site.count_names_leave known named,
    Schema.allFields, List.countP_filterMap]

/-- An untyped site is of one of the two untyped kinds. -/
theorem length_untypedIssues (sites : List Site) : (untypedIssues sites).length =
    (sites.countP fun site => site.shape.kindName == Shape.any.kindName) +
      sites.countP fun site => site.shape.kindName == (Shape.unknown "" .unclassified).kindName := by
  rw [untypedIssues, List.length_map, ← List.countP_eq_length_filter]
  induction sites with
  | nil => rfl
  | cons site rest ih =>
    obtain ⟨_, _, shape⟩ := site
    rw [List.countP_cons, List.countP_cons, List.countP_cons, ih]
    cases shape <;> simp [Shape.isUntyped, Shape.kindName] <;> omega

/-! ### The report -/

/-- What the report says of a schema. -/
structure UsageReport.CountsSites (report : UsageReport) (schema : Schema) : Prop where
  /-- Each kind is counted as often as there are sites of the kind. -/
  kinds : ∀ shape : Shape, report.count shape.kindName =
    schema.sites.countP fun site => site.shape.kindName == shape.kindName
  /-- The leave for absence is counted as often as there are fields that have it. -/
  optional : report.count "optional" = schema.allFields.countP Field.optional
  /-- The leave for null is counted as often as there are fields that have it. -/
  nullable : report.count "nullable" = schema.allFields.countP Field.nullable
  /-- Each untyped site has one issue, in order. -/
  issues : report.issues = untypedIssues schema.sites
  /-- There are as many issues as untyped sites are counted. -/
  untyped : report.issues.length = report.count "any" + report.count "unknown"
  /-- The names increase, so that none is counted twice. -/
  increasing : (report.kinds.map Prod.fst).Pairwise (· < ·)
  /-- No name is counted that does not occur. -/
  positive : ∀ entry ∈ report.kinds, 0 < entry.2

/-- The second report continues the first one. -/
structure UsageReport.IsSum (whole first second : UsageReport) : Prop where
  /-- The counts are added. -/
  count : ∀ name, whole.count name = first.count name + second.count name
  /-- The issues are put in a row. -/
  issues : whole.issues = first.issues ++ second.issues

/-- **The usage report counts every site once.** Each kind is counted as often as there are sites of the
kind, each leave as often as there are fields that have it, and each untyped site has one issue, in the
order of the sites. The report on two lists of tables in a row is the sum of the reports on each. -/
theorem usage_counts_sites (schema : Schema) :
    schema.usage.CountsSites schema ∧
      ∀ (source : String) (more : List Table),
        (Schema.usage ⟨source, schema.tables ++ more⟩).IsSum schema.usage
          (Schema.usage ⟨source, more⟩) := by
  constructor
  · refine ⟨schema.count_usage_kind, ?_, ?_, ?_, ?_, increasing_tally _, ?_⟩
    · refine schema.count_usage_leave (by decide) fun field => ?_
      cases optional : field.optional <;> cases nullable : field.nullable <;>
        simp [Field.leaveNames, optional, nullable]
    · refine schema.count_usage_leave (by decide) fun field => ?_
      cases optional : field.optional <;> cases nullable : field.nullable <;>
        simp [Field.leaveNames, optional, nullable]
    · rw [Schema.usage, schema.survey_eq]
    · have any : schema.usage.count "any" = _ := schema.count_usage_kind .any
      have unknown : schema.usage.count "unknown" = _ :=
        schema.count_usage_kind (.unknown "" .unclassified)
      rw [any, unknown, Schema.usage, schema.survey_eq]
      exact length_untypedIssues schema.sites
    · intro entry inside
      obtain ⟨occurs, times⟩ := mem_tally inside
      exact times ▸ List.count_pos_iff.mpr occurs
  · intro source more
    have sites : Schema.sites ⟨source, schema.tables ++ more⟩ =
        schema.sites ++ Schema.sites ⟨source, more⟩ := List.flatMap_append
    refine ⟨fun name => ?_, ?_⟩
    · rw [Schema.count_usage, Schema.count_usage, Schema.count_usage, sites, List.flatMap_append,
        List.count_append]
    · simp only [Schema.usage, Schema.survey_eq, sites, untypedIssues_append]

-- The untyped value of a mapping is a site of its own, and reported at the mapping.
example :
    let schema : Schema := ⟨"schema.ts", [⟨"logs", [.declare "entries" (.ofShape (.array (.ofShape
      (.record none (.ofShape .any))))) true], []⟩]⟩
    schema.sites.map (fun site => pathOf site.way) = ["entries", "entries[]", "entries[]\x7b\x7d"] ∧
      schema.usage.issues = [⟨"logs", "entries[]", "record with untyped value"⟩] := by
  decide

end SwiftBindings
