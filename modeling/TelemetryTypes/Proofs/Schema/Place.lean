import Mathlib.Logic.Relation
import TelemetryTypes.Proofs.Schema.Satisfaction

/-!
# Places

A place is a value within a document together with the schema that it is held to and the way to
each. From a place the rules on properties, on items and on a schema that is defined elsewhere lead
on to further places. What is found at a place or below it comes from a rule of a place that is
reached from it, which reports what it finds wrong with the value there and nothing else
(`exists_reaches_of_mem`).
-/

namespace TelemetryTypes.Schema

/-- A value that is held to a schema. -/
structure Place where
  location : List Step
  path : List String
  schema : List Rule
  value : Json

namespace Place

def violations (p : Place) : List Violation :=
  Schema.violations p.location p.path p.schema p.value

/-- What a rule of the place reports of the whole value. -/
def own (p : Place) (r : Rule) : List Violation :=
  (r.problems p.value).map (.mk p.location (p.path ++ [r.keyword]))

/-- The place of a property of the value. -/
def atKey (p : Place) (key : String) (schema : List Rule) (value : Json) : Place :=
  ⟨p.location ++ [.key key], p.path ++ ["properties", key], schema, value⟩

/-- The place of an item of the value. -/
def atIndex (p : Place) (i : Nat) (schema : List Rule) (item : Json) : Place :=
  ⟨p.location ++ [.index i], p.path ++ ["items"], schema, item⟩

/-- The place of the value itself under a schema that is defined elsewhere. -/
def atReference (p : Place) (schema : List Rule) : Place :=
  ⟨p.location, p.path ++ ["$ref"], schema, p.value⟩

end Place

/-- A rule of a place leads on to another place. -/
inductive Rule.Leads : Rule → Place → Place → Prop where
  | property {p : Place} {known : List (String × List Rule)} {entries : List (String × Json)}
      {key : String} {schema : List Rule} {value : Json} (hvalue : p.value = .object entries)
      (hknown : (key, schema) ∈ known) (hentry : (key, value) ∈ entries) :
      Leads (.properties known) p (p.atKey key schema value)
  | item {p : Place} {schema : List Rule} {items : List Json} {i : Nat} {item : Json}
      (hvalue : p.value = .array items) (hitem : items[i]? = some item) :
      Leads (.items schema) p (p.atIndex i schema item)
  | reference {p : Place} {schema : List Rule} :
      Leads (.reference schema) p (p.atReference schema)

namespace Place

/-- A place leads on to another one by one of its rules. -/
def Next (p q : Place) : Prop := ∃ r ∈ p.schema, r.Leads p q

/-- A place leads on to another one in any number of steps. -/
def Reaches : Place → Place → Prop := Relation.ReflTransGen Next

variable {p q : Place} {r : Rule}

theorem mem_subschemas_of_leads (h : r.Leads p q) : q.schema ∈ r.subschemas := by
  cases h with
  | property _ hknown _ => exact List.mem_map_of_mem hknown
  | item => exact List.mem_singleton_self _
  | reference => exact List.mem_singleton_self _

/-- What a rule finds is what it finds wrong with the whole, behind what is found where it leads. -/
theorem ruleViolations_eq_append (p : Place) (r : Rule) :
    ∃ inner, ruleViolations p.location p.path r p.value = inner ++ p.own r
      ∧ ∀ v ∈ inner, ∃ q, r.Leads p q ∧ v ∈ q.violations := by
  obtain ⟨location, path, schema, value⟩ := p
  cases r with
  | properties known =>
      cases value with
      | object entries =>
          rw [ruleViolations]
          refine ⟨_, rfl, fun v hv => ?_⟩
          obtain ⟨⟨key, x⟩, hentry, hv⟩ := List.mem_flatMap.mp hv
          rw [propertyViolations_eq] at hv
          cases hfind : known.find? (·.1 == key) with
          | none => simp [hfind] at hv
          | some property =>
              obtain ⟨name, inner⟩ := property
              obtain rfl : name = key := by simpa using List.find?_some hfind
              rw [hfind] at hv
              exact ⟨_, .property rfl (List.mem_of_find?_eq_some hfind) hentry, hv⟩
      | _ => exact ⟨[], by simp [ruleViolations, own], List.forall_mem_nil _⟩
  | items inner =>
      cases value with
      | array items =>
          rw [ruleViolations]
          refine ⟨_, rfl, fun v hv => ?_⟩
          obtain ⟨⟨item, i⟩, hitem, hv⟩ := List.mem_flatMap.mp hv
          exact ⟨_, .item rfl (List.mem_zipIdx_iff_getElem?.mp hitem), hv⟩
      | _ => exact ⟨[], by simp [ruleViolations, own], List.forall_mem_nil _⟩
  | reference inner =>
      rw [ruleViolations]
      exact ⟨_, rfl, fun v hv => ⟨_, .reference, hv⟩⟩
  | _ => exact ⟨[], by simp [ruleViolations, own], List.forall_mem_nil _⟩

theorem mem_violations_iff {v : Violation} :
    v ∈ p.violations ↔ ∃ r ∈ p.schema, v ∈ ruleViolations p.location p.path r p.value := by
  rw [violations, violations_eq_flatMap, List.mem_flatMap]

theorem exists_reaches_of_mem_ruleViolations {v : Violation} (hr : r ∈ p.schema)
    (hv : v ∈ ruleViolations p.location p.path r p.value) :
    ∃ q, p.Reaches q ∧ ∃ s ∈ q.schema, v ∈ q.own s := by
  induction r using Rule.induction generalizing p with
  | step r ih =>
      obtain ⟨inner, heq, hinner⟩ := ruleViolations_eq_append p r
      rw [heq] at hv
      rcases List.mem_append.mp hv with hv | hown
      · obtain ⟨q, hleads, hv⟩ := hinner v hv
        obtain ⟨s, hs, hv⟩ := mem_violations_iff.mp hv
        obtain ⟨place, hreaches, hplace⟩ := ih q.schema (mem_subschemas_of_leads hleads) s hs hs hv
        exact ⟨place, .head ⟨r, hr, hleads⟩ hreaches, hplace⟩
      · exact ⟨p, .refl, r, hr, hown⟩

/-- Every violation is reported by a rule of the place that it is reported for. -/
theorem exists_reaches_of_mem {v : Violation} (hv : v ∈ p.violations) :
    ∃ q, p.Reaches q ∧ ∃ r ∈ q.schema, v ∈ q.own r := by
  obtain ⟨r, hr, hv⟩ := mem_violations_iff.mp hv
  exact exists_reaches_of_mem_ruleViolations hr hv

end Place

end TelemetryTypes.Schema
