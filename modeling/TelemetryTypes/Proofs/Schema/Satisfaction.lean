import TelemetryTypes.Proofs.Schema.Matching
import TelemetryTypes.Schema.Violation

/-!
# Values that satisfy a schema

`Rule.Holds` says what each keyword asks of the value it is applied to, and `Satisfies` that all the
rules of a schema hold, of a value and of those of its parts that they are passed on to.
`violations_eq_nil_iff` says that a value without violations is a value that satisfies the schema,
at whatever place of a document and of a schema.
-/

namespace TelemetryTypes.Schema

/-! ### Keywords -/

/-- What a keyword asks of a value. Keywords for texts, arrays and objects ask nothing of other
values; those that pass parts of a value on ask nothing of the whole. -/
def Rule.Holds : Rule → Json → Prop
  | type t, value => t.has value = true
  | enum options, value => ∃ option ∈ options, value = .string option
  | pattern p, value => ∀ s, value = .string s → p.Matches s.toList
  | minLength n, value => ∀ s, value = .string s → n ≤ s.length
  | minItems n, value => ∀ values, value = .array values → n ≤ values.length
  | uniqueItems, value => ∀ values, value = .array values →
      values.Pairwise fun a b => Json.sameValue a b = false
  | required names, value => ∀ entries, value = .object entries →
      ∀ name ∈ names, name ∈ entries.map Prod.fst
  | notAll names, value => ∃ entries, value = .object entries ∧
      ∃ name ∈ names, name ∉ entries.map Prod.fst
  | properties known, value => ∀ entries, value = .object entries →
      ∀ key ∈ entries.map Prod.fst, key ∈ known.map Prod.fst
  | items _, _ => True
  | reference _, _ => True

theorem distinct_iff (values : List Json) :
    Json.distinct values = true ↔ values.Pairwise fun a b => Json.sameValue a b = false := by
  induction values with
  | nil => simp [Json.distinct]
  | cons value rest ih => simp [Json.distinct, ih]

theorem any_sameValue_iff (options : List String) (value : Json) :
    (options.any fun option => Json.sameValue (.string option) value) = true
      ↔ ∃ option ∈ options, value = .string option := by
  cases value <;> simp [Json.sameValue]

/-- A keyword finds a problem exactly where what it asks for is not so. -/
theorem Rule.problems_eq_nil_iff (r : Rule) (value : Json) :
    r.problems value = [] ↔ r.Holds value := by
  cases r with
  | type t => cases h : t.has value <;> simp [problems, Holds, h]
  | enum options =>
      rw [Holds, ← any_sameValue_iff, problems]
      split <;> simp_all
  | pattern p => cases value <;> simp [problems, Holds, Pattern.holds_iff]
  | minLength n => cases value <;> simp [problems, Holds]
  | minItems n => cases value <;> simp [problems, Holds]
  | uniqueItems => cases value <;> simp [problems, Holds, distinct_iff]
  | required names => cases value <;> simp [problems, Holds]
  | notAll names => cases value <;> simp [problems, Holds]
  | properties known => cases value <;> simp [problems, Holds]
  | items _ => simp [problems, Holds]
  | reference _ => simp [problems, Holds]

theorem Rule.problems_eq_nil_or_singleton {r : Rule} (hr : ∀ names, r ≠ .required names)
    (value : Json) : r.problems value = [] ∨ ∃ problem, r.problems value = [problem] := by
  have hite (c : Prop) [Decidable c] (problem : Problem) :
      (if c then [] else [problem]) = [] ∨ ∃ other, (if c then [] else [problem]) = [other] := by
    split
    · exact .inl rfl
    · exact .inr ⟨problem, rfl⟩
  cases r with
  | required names => exact absurd rfl (hr names)
  | type t => exact hite _ _
  | enum options => exact hite _ _
  | pattern p =>
      cases value with
      | string s => exact hite _ _
      | _ => exact .inl rfl
  | minLength n =>
      cases value with
      | string s => exact hite _ _
      | _ => exact .inl rfl
  | minItems n =>
      cases value with
      | array values => exact hite _ _
      | _ => exact .inl rfl
  | uniqueItems =>
      cases value with
      | array values => exact hite _ _
      | _ => exact .inl rfl
  | notAll names =>
      cases value with
      | object entries =>
          rw [problems]
          split
          · exact .inr ⟨_, rfl⟩
          · exact .inl rfl
      | _ => exact .inr ⟨_, rfl⟩
  | properties known =>
      cases value with
      | object entries => exact hite _ _
      | _ => exact .inl rfl
  | items _ => exact .inl rfl
  | reference _ => exact .inl rfl

/-- A keyword that does not hold has one problem, but for the one that asks for several names. -/
theorem Rule.exists_problems_eq {r : Rule} (hr : ∀ names, r ≠ .required names) {value : Json}
    (h : ¬r.Holds value) : ∃ problem, r.problems value = [problem] :=
  (problems_eq_nil_or_singleton hr value).resolve_left (mt (r.problems_eq_nil_iff value).mp h)

/-- The names among some that an object does not have. -/
def missing (names : List String) : Json → List String
  | .object entries => names.filter fun name => name ∉ entries.map Prod.fst
  | _ => []

theorem Rule.problems_required (names : List String) (value : Json) :
    (Rule.required names).problems value = (missing names value).map .missing := by
  cases value with
  | object entries =>
      have hlacks (name : String) :
          (!entries.any (·.1 == name)) = decide (name ∉ entries.map Prod.fst) := by
        simp [List.any_eq]
      simp only [problems, missing, hlacks]
  | _ => rfl

/-! ### Schemas within schemas -/

/-- The schemas that a rule passes a value or its parts on to. -/
def Rule.subschemas : Rule → List (List Rule)
  | properties known => known.map Prod.snd
  | items schema => [schema]
  | reference schema => [schema]
  | _ => []

theorem Rule.sizeOf_lt_of_mem_subschemas {r s : Rule} {schema : List Rule}
    (hschema : schema ∈ r.subschemas) (hs : s ∈ schema) : sizeOf s < sizeOf r := by
  have hrule : sizeOf s < sizeOf schema := List.sizeOf_lt_of_mem hs
  cases r with
  | properties known =>
      obtain ⟨⟨name, inner⟩, hmem, rfl⟩ := List.mem_map.mp hschema
      have hinner : sizeOf s < sizeOf inner := hrule
      have hproperty : sizeOf (name, inner) < sizeOf known := List.sizeOf_lt_of_mem hmem
      rw [Prod.mk.sizeOf_spec] at hproperty
      rw [properties.sizeOf_spec]
      omega
  | items inner =>
      obtain rfl := List.mem_singleton.mp hschema
      rw [items.sizeOf_spec]
      omega
  | reference inner =>
      obtain rfl := List.mem_singleton.mp hschema
      rw [reference.sizeOf_spec]
      omega
  | _ => cases hschema

/-- Induction over a schema: a rule after the rules of the schemas that it passes parts on to. -/
@[elab_as_elim]
theorem Rule.induction {motive : Rule → Prop}
    (step : ∀ r : Rule, (∀ schema ∈ r.subschemas, ∀ s ∈ schema, motive s) → motive r) (r : Rule) :
    motive r :=
  step r fun schema _hschema s _hs => induction step s
termination_by sizeOf r
decreasing_by exact sizeOf_lt_of_mem_subschemas _hschema _hs

theorem violations_eq_flatMap (location : List Step) (path : List String) (schema : List Rule)
    (value : Json) :
    violations location path schema value
      = schema.flatMap fun r => ruleViolations location path r value := by
  induction schema with
  | nil => rfl
  | cons r rest ih => rw [violations, ih, List.flatMap_cons]

/-- Of a property what the first schema of its name finds. -/
theorem propertyViolations_eq (location : List Step) (path : List String)
    (known : List (String × List Rule)) (key : String) (value : Json) :
    propertyViolations location path known key value
      = match known.find? (·.1 == key) with
        | some (_, schema) => violations location (path ++ ["properties", key]) schema value
        | none => [] := by
  induction known with
  | nil => rfl
  | cons property rest ih =>
      obtain ⟨name, schema⟩ := property
      by_cases hname : name = key <;> simp [propertyViolations, hname, ih]

/-! ### Whole schemas -/

mutual

/-- Whether a value obeys all rules of a schema, and its parts those that they are passed on to. -/
def Satisfies : List Rule → Json → Prop
  | [], _ => True
  | r :: rest, value => RuleSatisfies r value ∧ Satisfies rest value

def RuleSatisfies (r : Rule) (value : Json) : Prop :=
  r.Holds value ∧ match r, value with
    | .properties known, .object entries =>
      ∀ entry ∈ entries, PropertySatisfies known entry.1 entry.2
    | .items schema, .array values => ∀ item ∈ values, Satisfies schema item
    | .reference schema, value => Satisfies schema value
    | _, _ => True

def PropertySatisfies : List (String × List Rule) → String → Json → Prop
  | [], _, _ => True
  | (name, schema) :: rest, key, value =>
    if name = key then Satisfies schema value else PropertySatisfies rest key value

end

theorem satisfies_iff (schema : List Rule) (value : Json) :
    Satisfies schema value ↔ ∀ r ∈ schema, RuleSatisfies r value := by
  induction schema with
  | nil => simp [Satisfies]
  | cons r rest ih => rw [Satisfies, ih, List.forall_mem_cons]

theorem violations_eq_nil_of_rules {schema : List Rule} {value : Json}
    (h : ∀ r ∈ schema, ∀ location path, ruleViolations location path r value = []
      ↔ RuleSatisfies r value) (location : List Step) (path : List String) :
    violations location path schema value = [] ↔ Satisfies schema value := by
  rw [violations_eq_flatMap, List.flatMap_eq_nil_iff, satisfies_iff]
  exact forall₂_congr fun r hr => h r hr location path

theorem propertyViolations_eq_nil_of_rules {known : List (String × List Rule)} {value : Json}
    (h : ∀ schema ∈ known.map Prod.snd, ∀ r ∈ schema, ∀ location path,
      ruleViolations location path r value = [] ↔ RuleSatisfies r value)
    (location : List Step) (path : List String) (key : String) :
    propertyViolations location path known key value = [] ↔ PropertySatisfies known key value := by
  induction known with
  | nil => simp [propertyViolations, PropertySatisfies]
  | cons property rest ih =>
      obtain ⟨name, schema⟩ := property
      rw [List.map_cons, List.forall_mem_cons] at h
      rw [propertyViolations, PropertySatisfies]
      split
      · exact violations_eq_nil_of_rules h.1 location _
      · exact ih h.2

theorem ruleViolations_eq_nil_iff (r : Rule) (value : Json) (location : List Step)
    (path : List String) : ruleViolations location path r value = [] ↔ RuleSatisfies r value := by
  induction r using Rule.induction generalizing value location path with
  | step r ih =>
      have hown : (r.problems value).map (Violation.mk location (path ++ [r.keyword])) = []
          ↔ r.Holds value := by
        rw [List.map_eq_nil_iff, r.problems_eq_nil_iff]
      cases r with
      | properties known =>
          cases value with
          | object entries =>
              rw [ruleViolations, RuleSatisfies, List.append_eq_nil_iff, hown, and_comm,
                List.flatMap_eq_nil_iff]
              refine and_congr_right fun _ => forall₂_congr fun entry _ => ?_
              exact propertyViolations_eq_nil_of_rules
                (fun schema hschema r hr => ih schema hschema r hr entry.2) _ path entry.1
          | _ => simp [ruleViolations, RuleSatisfies, hown]
      | items schema =>
          cases value with
          | array values =>
              rw [ruleViolations, RuleSatisfies, List.append_eq_nil_iff, hown, and_comm,
                List.flatMap_eq_nil_iff]
              refine and_congr_right fun _ => ?_
              rw [← List.zipIdx_map_fst 0 values, List.forall_mem_map, List.zipIdx_map_fst]
              refine forall₂_congr fun item _ => ?_
              exact violations_eq_nil_of_rules
                (fun r hr => ih schema (List.mem_singleton_self schema) r hr item.1) _ _
          | _ => simp [ruleViolations, RuleSatisfies, hown]
      | reference schema =>
          rw [ruleViolations, RuleSatisfies, List.append_eq_nil_iff, hown, and_comm]
          refine and_congr_right fun _ => ?_
          exact violations_eq_nil_of_rules
            (fun r hr => ih schema (List.mem_singleton_self schema) r hr value) location _
      | _ => simp [ruleViolations, RuleSatisfies, hown]

/-- A value has no violations exactly when it satisfies the schema. -/
theorem violations_eq_nil_iff (location : List Step) (path : List String) (schema : List Rule)
    (value : Json) : violations location path schema value = [] ↔ Satisfies schema value :=
  violations_eq_nil_of_rules (fun r _ => ruleViolations_eq_nil_iff r value) location path

end TelemetryTypes.Schema
