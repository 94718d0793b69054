import TelemetryTypes.Definitions.Text
import TelemetryTypes.Proofs.Definitions.Reading
import TelemetryTypes.Proofs.Schema.Locality
import TelemetryTypes.Proofs.Yaml.Canonical

/-!
# The report of a rejected document

A document that is rejected is reported on as a whole. Each violation points at a value of the
document and at a keyword of the schema that the value alone breaks, and every keyword that a value
breaks is reported for it once, wherever the schema leads to the value; only a required property is
reported under each of its names that is missing. What is reported below a location is settled by
the value there, so an item of an array is reported on as if it stood alone. This needs every object
to have its keys in strict order, as every value that is read from a text has them.
-/

namespace TelemetryTypes.Definitions

open TelemetryTypes.Schema

theorem wellFormed_schema : wellFormed schema = true := by decide

/-- The violations that are reported with the two pointers of a rule at a place. -/
def reportedFor (found : List Violation) (q : Schema.Place) (r : Rule) : List Violation :=
  found.filter fun v => v.instancePath = pointer (q.location.map Step.text)
    ∧ v.schemaPath = pointer (q.path ++ [r.keyword])

/-- What is reported of a document is what the schema finds wrong with it. -/
structure Reported (value : Json) (found : List Violation) : Prop where
  /-- A violation points at a value that breaks the keyword that it points at. -/
  sound : ∀ v ∈ found, ∃ x r, value.resolve? v.instancePath = some x
    ∧ resolveRule? schema v.schemaPath = some r ∧ r.keyword ∈ assertionKeywords
    ∧ ¬r.Holds x ∧ v.problem ∈ r.problems x
  /-- A keyword that is broken where the schema leads is reported there, and once. -/
  once : ∀ q, (Schema.Place.root schema value).Reaches q → ∀ r ∈ q.schema, ¬r.Holds q.value →
    (∀ names, r ≠ .required names) →
      ∃ v, reportedFor found q r = [v] ∧ v.problem ∈ r.problems q.value
  /-- Required properties are reported where the schema leads, each that is missing. -/
  missing : ∀ q, (Schema.Place.root schema value).Reaches q → ∀ names, .required names ∈ q.schema →
    (reportedFor found q (.required names)).map Violation.problem
      = (missing names q.value).map .missing
  /-- Below a location only the value there matters. -/
  separate : ∀ other : Json, other.Canonical → ∀ location x, value.at? location = some x →
    other.at? location = some x → below location found = below location (violations other)

section Reports

variable {value : Json}

theorem wellFormed_root (hvalue : value.Canonical) : (Schema.Place.root schema value).WellFormed :=
  ⟨wellFormed_schema, hvalue⟩

theorem reportedFor_violations (hvalue : value.Canonical) {q : Schema.Place}
    (hreaches : (Schema.Place.root schema value).Reaches q) {r : Rule} (hr : r ∈ q.schema) :
    reportedFor (violations value) q r = q.own r := by
  have hroot := wellFormed_root hvalue
  rw [← hroot.filter_at_of_reaches hreaches hr, reportedFor]
  exact List.filter_congr fun v hv =>
    decide_eq_decide.mpr (Schema.Place.at_iff_pointers hroot hv hreaches).symm

theorem reported_violations (hvalue : value.Canonical) : Reported value (violations value) where
  sound v hv := by
    have hroot := wellFormed_root hvalue
    obtain ⟨q, hreaches, r, hr, hown⟩ :=
      Schema.Place.exists_reaches_of_mem (p := Schema.Place.root schema value) hv
    obtain ⟨problem, hproblem, rfl⟩ := List.mem_map.mp hown
    have hbroken : ¬r.Holds q.value := by
      rw [← r.problems_eq_nil_iff]
      exact List.ne_nil_of_mem hproblem
    exact ⟨q.value, r, Json.resolve?_of_at? (Schema.Place.at?_location hroot hreaches),
      Schema.Place.resolveRule?_of_reaches hroot hreaches hr, Rule.keyword_mem_of_not_holds hbroken,
      hbroken, hproblem⟩
  once q hreaches r hr hbroken hother := by
    obtain ⟨problem, hproblem⟩ := Rule.exists_problems_eq hother hbroken
    rw [reportedFor_violations hvalue hreaches hr, Schema.Place.own, hproblem]
    exact ⟨_, rfl, List.mem_singleton_self problem⟩
  missing q hreaches names hr := by
    rw [reportedFor_violations hvalue hreaches hr, Schema.Place.own, Rule.problems_required,
      List.map_map]
    exact List.map_id _
  separate other hother location x hat hat' :=
    below_violations_congr [] schema ⟨⟨hvalue, hother⟩, x, hat, hat'⟩

end Reports

/-- A document is rejected with all that the schema finds wrong with it. -/
theorem violations_of_rejected {value : Json} {source path : String} {found : List Violation}
    (h : ofJson value source = .error (.rejected path found)) :
    source = path ∧ violations value = found ∧ found ≠ [] := by
  have hdocument : ¬IsDocument value := by
    intro hdocument
    obtain ⟨d, hd⟩ := hdocument.exists_writtenAs
    rw [ofJson_of_isDocument source hdocument hd] at h
    cases h
  rw [ofJson_of_not_isDocument source hdocument] at h
  obtain ⟨rfl, rfl⟩ : source = path ∧ violations value = found := by simpa using h
  exact ⟨rfl, rfl, mt (violations_eq_nil_iff_isDocument value).mp hdocument⟩

/-- **Reports are sound, complete and located.** -/
theorem reported_of_rejected {value : Json} {source path : String} {found : List Violation}
    (hvalue : value.Canonical) (h : ofJson value source = .error (.rejected path found)) :
    path = source ∧ found ≠ [] ∧ Reported value found := by
  obtain ⟨rfl, rfl, hne⟩ := violations_of_rejected h
  exact ⟨rfl, hne, reported_violations hvalue⟩

/-- A document of one metric that breaks two keywords, and of something that is no metric. -/
def faulty : Json :=
  .object [("metrics", .array [.object [("name", .string "a_b"), ("unit", .string "Feet")],
    .bool true])]

example : (violations faulty).map (fun v => (v.instancePath, v.schemaPath)) = [
    ("/metrics/0/unit", "/properties/metrics/items/$ref/properties/unit/enum"),
    ("/metrics/0", "/properties/metrics/items/$ref/required"),
    ("/metrics/1", "/properties/metrics/items/$ref/type")] := by decide

theorem reported_of_rejected_faulty :
    "a.json" = "a.json" ∧ violations faulty ≠ [] ∧ Reported faulty (violations faulty) := by
  have hcanonical : faulty.Canonical :=
    ⟨by decide, ⟨⟨by decide, trivial, trivial, trivial⟩, trivial, trivial⟩, trivial⟩
  exact reported_of_rejected hcanonical
    (show ofJson faulty "a.json" = .error (.rejected "a.json" (violations faulty)) from rfl)

/-! ### Documents as text -/

theorem gives_parse (format : Format) (text : String) :
    Gives Json.Canonical (parse format text) := by
  cases format with
  | json =>
      rw [parse]
      split
      next heq => exact .ok (Json.gives_parse _ _ heq)
      next => exact .error
  | yaml =>
      rw [parse]
      split
      next heq => exact .ok (Yaml.gives_parse _ _ heq)
      next => exact .error

/-- A text that is rejected is reported on by the value that it holds, which is canonical whatever
the text. -/
theorem reported_of_ofText {text path source : String} {found : List Violation}
    (h : ofText text path = .error (.rejected source found)) :
    source = path ∧ found ≠ []
      ∧ ∃ value, parse (.ofPath path) text = .ok value ∧ Reported value found := by
  unfold ofText at h
  split at h
  next value hparse =>
    obtain ⟨rfl, rfl, hne⟩ := violations_of_rejected h
    exact ⟨rfl, hne, value, hparse, reported_violations (gives_parse _ _ value hparse)⟩
  next => cases h

end TelemetryTypes.Definitions
