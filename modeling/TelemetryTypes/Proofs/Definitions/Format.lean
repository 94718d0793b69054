import Mathlib.Data.Set.List
import TelemetryTypes.Definitions.Text
import TelemetryTypes.Proofs.Json.Entries
import TelemetryTypes.Proofs.Schema.Satisfaction

/-!
# The format of a document

What a document looks like, written down without rules and keywords: a record is an object that has
certain keys and whose entries are each of one of the listed forms. `satisfies_schema_iff` says that
the schema describes exactly these documents.
-/

namespace TelemetryTypes.Definitions

open TelemetryTypes.Schema

/-! ### Names -/

/-- A letter, then letters and digits. -/
def IsTypeName (name : String) : Prop :=
  ∃ first rest, name.toList = first :: rest ∧ first.isAlpha = true
    ∧ ∀ x ∈ rest, x.isAlphanum = true

/-- Letters and digits, an underscore, and more of all three. -/
def IsMetricName (name : String) : Prop :=
  ∃ front back, name.toList = front ++ '_' :: back
    ∧ front ≠ [] ∧ (∀ x ∈ front, x.isAlphanum = true)
    ∧ back ≠ [] ∧ ∀ x ∈ back, x.isAlphanum = true ∨ x = '_'

theorem typeNamePattern_matches_iff (name : String) :
    typeNamePattern.Matches name.toList ↔ IsTypeName name := by
  simp only [typeNamePattern, Pattern.Matches, Part.Matches, CharClass.has]
  constructor
  · rintro ⟨_, _, htext, ⟨first, rfl, hfirst⟩, rest, _, rfl, hrest, rfl⟩
    exact ⟨first, rest, by simpa using htext, hfirst, hrest⟩
  · rintro ⟨first, rest, htext, hfirst, hrest⟩
    exact ⟨[first], rest, htext, ⟨first, rfl, hfirst⟩, rest, [], rest.append_nil.symm, hrest, rfl⟩

theorem metricNamePattern_matches_iff (name : String) :
    metricNamePattern.Matches name.toList ↔ IsMetricName name := by
  simp only [metricNamePattern, Pattern.Matches, Part.Matches, CharClass.has, beq_iff_eq,
    Bool.or_eq_true]
  constructor
  · rintro ⟨front, _, htext, hfront, _, _, rfl, ⟨_, rfl, rfl⟩, back, _, rfl, hback, rfl⟩
    exact ⟨front, back, by simpa using htext, hfront.1, hfront.2, hback.1, hback.2⟩
  · rintro ⟨front, back, htext, hfront, hfronts, hback, hbacks⟩
    exact ⟨front, '_' :: back, htext, ⟨hfront, hfronts⟩, ['_'], back, rfl, ⟨'_', rfl, rfl⟩,
      back, [], back.append_nil.symm, ⟨hback, hbacks⟩, rfl⟩

/-! ### Records -/

/-- An object that has the given keys and whose entries are all of one kind. -/
def IsRecord (Entry : String × Json → Prop) (required : List String) (value : Json) : Prop :=
  ∃ entries, value = .object entries ∧ (∀ entry ∈ entries, Entry entry)
    ∧ ∀ name ∈ required, name ∈ entries.map Prod.fst

/-- An array whose items are all of one kind. -/
def IsListOf (Item : Json → Prop) (value : Json) : Prop :=
  ∃ items, value = .array items ∧ ∀ item ∈ items, Item item

inductive TypeEntry : String × Json → Prop where
  | name {s : String} (hname : IsTypeName s) : TypeEntry ("name", .string s)
  | description (s : String) : TypeEntry ("description", .string s)
  | allowedValues {values : List String} (hne : values ≠ []) (hnodup : values.Nodup) :
      TypeEntry ("allowedValues", .array (values.map .string))
  | kind (s : String) : TypeEntry ("type", .string s)

/-- A metadata type lists its values or names a type or does neither. -/
def IsMetadataType (value : Json) : Prop :=
  IsRecord TypeEntry ["name"] value
    ∧ (value.get? "allowedValues" = none ∨ value.get? "type" = none)

inductive ReferenceEntry : String × Json → Prop where
  | typeName {s : String} (hne : s ≠ "") : ReferenceEntry ("type", .string s)
  | required (b : Bool) : ReferenceEntry ("required", .bool b)
  | description (s : String) : ReferenceEntry ("description", .string s)

def IsReference : Json → Prop := IsRecord ReferenceEntry ["type"]

inductive MetricEntry : String × Json → Prop where
  | name {s : String} (hname : IsMetricName s) : MetricEntry ("name", .string s)
  | description (s : String) : MetricEntry ("description", .string s)
  | unit {s : String} (hunit : s ∈ units) : MetricEntry ("unit", .string s)
  | passive (b : Bool) : MetricEntry ("passive", .bool b)
  | trackPerformance (b : Bool) : MetricEntry ("trackPerformance", .bool b)
  | metadata {value : Json} (hvalue : IsListOf IsReference value) :
      MetricEntry ("metadata", value)

def IsMetric : Json → Prop := IsRecord MetricEntry ["name", "description"]

inductive DocumentEntry : String × Json → Prop where
  | types {value : Json} (hvalue : IsListOf IsMetadataType value) : DocumentEntry ("types", value)
  | metrics {value : Json} (hvalue : IsListOf IsMetric value) : DocumentEntry ("metrics", value)

def IsDocument : Json → Prop := IsRecord DocumentEntry []

/-! ### What the keywords say -/

theorem satisfies_string_iff (value : Json) :
    Satisfies [.type .string] value ↔ ∃ s, value = .string s := by
  cases value <;> simp [Satisfies, RuleSatisfies, Rule.Holds, ValueType.has]

theorem satisfies_boolean_iff (value : Json) :
    Satisfies [.type .boolean] value ↔ ∃ b, value = .bool b := by
  cases value <;> simp [Satisfies, RuleSatisfies, Rule.Holds, ValueType.has]

theorem satisfies_pattern_iff (p : Pattern) (value : Json) :
    Satisfies [.pattern p, .type .string] value ↔ ∃ s, value = .string s ∧ p.Matches s.toList := by
  cases value <;> simp [Satisfies, RuleSatisfies, Rule.Holds, ValueType.has]

theorem satisfies_enum_iff (options : List String) (value : Json) :
    Satisfies [.enum options, .type .string] value ↔ ∃ s ∈ options, value = .string s := by
  cases value <;> simp [Satisfies, RuleSatisfies, Rule.Holds, ValueType.has]

theorem satisfies_nonempty_iff (value : Json) :
    Satisfies [.minLength 1, .type .string] value ↔ ∃ s, value = .string s ∧ s ≠ "" := by
  cases value <;>
    simp [Satisfies, RuleSatisfies, Rule.Holds, ValueType.has, Nat.one_le_iff_ne_zero]

theorem satisfies_list_iff {schema : List Rule} {Item : Json → Prop}
    (hitem : ∀ value, Satisfies schema value ↔ Item value) (value : Json) :
    Satisfies [.items [.reference schema], .type .array] value ↔ IsListOf Item value := by
  cases value <;> simp [Satisfies, RuleSatisfies, Rule.Holds, ValueType.has, IsListOf, hitem]

theorem forall_satisfies_string_iff (items : List Json) :
    (∀ item ∈ items, Satisfies [.type .string] item)
      ↔ ∃ values : List String, items = values.map .string := by
  have hrange := Set.ext_iff.mp (Set.range_list_map Json.string) items
  simp only [Set.mem_range, Set.mem_ofPred_eq] at hrange
  simp only [satisfies_string_iff, eq_comm (b := Json.string _), ← hrange, eq_comm (a := items)]

theorem pairwise_string_iff (values : List String) :
    ((values.map Json.string).Pairwise fun a b => Json.sameValue a b = false)
      ↔ values.Nodup := by
  simp [List.pairwise_map, Json.sameValue, List.Nodup]

theorem satisfies_values_iff (value : Json) :
    Satisfies [.items [.type .string], .minItems 1, .type .array, .uniqueItems] value
      ↔ ∃ values : List String, value = .array (values.map .string)
          ∧ values ≠ [] ∧ values.Nodup := by
  cases value with
  | array items =>
      have hrules : Satisfies [.items [.type .string], .minItems 1, .type .array, .uniqueItems]
            (.array items)
          ↔ (∀ item ∈ items, Satisfies [.type .string] item) ∧ 1 ≤ items.length
            ∧ items.Pairwise fun a b => Json.sameValue a b = false := by
        rw [Satisfies, Satisfies, Satisfies, Satisfies, Satisfies]
        simp [RuleSatisfies, Rule.Holds, ValueType.has]
      rw [hrules, forall_satisfies_string_iff]
      constructor
      · rintro ⟨⟨values, rfl⟩, hlength, hpairwise⟩
        refine ⟨values, rfl, ?_, ?_⟩
        · rintro rfl
          exact absurd hlength (by decide)
        · exact (pairwise_string_iff values).mp hpairwise
      · rintro ⟨values, hvalues, hne, hnodup⟩
        obtain rfl := Json.array.inj hvalues
        refine ⟨⟨values, rfl⟩, ?_, ?_⟩
        · rw [List.length_map]
          exact List.length_pos_of_ne_nil hne
        · exact (pairwise_string_iff values).mpr hnodup
  | _ => simp [Satisfies, RuleSatisfies, Rule.Holds, ValueType.has]

/-! ### What the rules for an object say -/

theorem propertySatisfies_iff {known : List (String × List Rule)}
    (hknown : (known.map Prod.fst).Nodup) (key : String) (value : Json) :
    key ∈ known.map Prod.fst ∧ PropertySatisfies known key value
      ↔ ∃ property ∈ known, key = property.1 ∧ Satisfies property.2 value := by
  induction known with
  | nil => simp
  | cons property rest ih =>
      obtain ⟨name, schema⟩ := property
      rw [List.map_cons, List.nodup_cons] at hknown
      rw [PropertySatisfies, List.exists_mem_cons_iff, ← ih hknown.2, List.map_cons, List.mem_cons]
      by_cases hname : key = name
      · subst hname
        simp [hknown.1]
      · simp [hname, Ne.symm hname]

theorem satisfies_record_iff {known : List (String × List Rule)} {required : List String}
    {Entry : String × Json → Prop} (hknown : (known.map Prod.fst).Nodup)
    (hentry : ∀ key value, Entry (key, value)
      ↔ ∃ property ∈ known, key = property.1 ∧ Satisfies property.2 value)
    (value : Json) :
    RuleSatisfies (.properties known) value ∧ RuleSatisfies (.required required) value
        ∧ RuleSatisfies (.type .object) value
      ↔ IsRecord Entry required value := by
  cases value with
  | object entries =>
      simp only [IsRecord, Prod.forall, hentry, ← propertySatisfies_iff hknown, RuleSatisfies,
        Rule.Holds, ValueType.has, Json.object.injEq, forall_eq', exists_eq_left', and_true,
        forall_and, List.forall_mem_map]
  | _ => simp [IsRecord, RuleSatisfies, Rule.Holds, ValueType.has]

/-! ### The schema -/

theorem typeEntry_iff (key : String) (value : Json) :
    TypeEntry (key, value)
      ↔ (key = "name" ∧ ∃ s, value = .string s ∧ IsTypeName s)
        ∨ (key = "description" ∧ ∃ s, value = .string s)
        ∨ (key = "allowedValues" ∧ ∃ values : List String,
            value = .array (values.map .string) ∧ values ≠ [] ∧ values.Nodup)
        ∨ (key = "type" ∧ ∃ s, value = .string s) := by
  constructor
  · rintro (@⟨s, hname⟩ | s | @⟨values, hne, hnodup⟩ | s)
    · exact .inl ⟨rfl, s, rfl, hname⟩
    · exact .inr (.inl ⟨rfl, s, rfl⟩)
    · exact .inr (.inr (.inl ⟨rfl, values, rfl, hne, hnodup⟩))
    · exact .inr (.inr (.inr ⟨rfl, s, rfl⟩))
  · rintro (⟨rfl, s, rfl, hname⟩ | ⟨rfl, s, rfl⟩ | ⟨rfl, values, rfl, hne, hnodup⟩ | ⟨rfl, s, rfl⟩)
    · exact .name hname
    · exact .description s
    · exact .allowedValues hne hnodup
    · exact .kind s

theorem satisfies_metadataTypeSchema_iff (value : Json) :
    Satisfies metadataTypeSchema value ↔ IsMetadataType value := by
  have hboth : RuleSatisfies (.notAll ["allowedValues", "type"]) value
      ∧ RuleSatisfies (.type .object) value
      ↔ (value.get? "allowedValues" = none ∨ value.get? "type" = none)
        ∧ RuleSatisfies (.type .object) value := by
    cases value <;>
      simp [RuleSatisfies, Rule.Holds, ValueType.has, Json.get?, Json.lookup_eq_none_iff]
  have hrecord : RuleSatisfies (.properties [
        ("name", [.pattern typeNamePattern, .type .string]),
        ("description", [.type .string]),
        ("allowedValues", [.items [.type .string], .minItems 1, .type .array, .uniqueItems]),
        ("type", [.type .string])]) value
      ∧ RuleSatisfies (.required ["name"]) value ∧ RuleSatisfies (.type .object) value
      ↔ IsRecord TypeEntry ["name"] value := by
    refine satisfies_record_iff (by decide) (fun key field => ?_) value
    simp only [typeEntry_iff, List.exists_mem_cons_iff, List.not_mem_nil, false_and, exists_false,
      or_false, satisfies_pattern_iff, satisfies_string_iff, satisfies_values_iff,
      typeNamePattern_matches_iff]
  rw [IsMetadataType, ← hrecord]
  simp only [metadataTypeSchema, Satisfies, and_true]
  tauto

theorem referenceEntry_iff (key : String) (value : Json) :
    ReferenceEntry (key, value)
      ↔ (key = "type" ∧ ∃ s, value = .string s ∧ s ≠ "")
        ∨ (key = "required" ∧ ∃ b, value = .bool b)
        ∨ (key = "description" ∧ ∃ s, value = .string s) := by
  constructor
  · rintro (@⟨s, hne⟩ | b | s)
    · exact .inl ⟨rfl, s, rfl, hne⟩
    · exact .inr (.inl ⟨rfl, b, rfl⟩)
    · exact .inr (.inr ⟨rfl, s, rfl⟩)
  · rintro (⟨rfl, s, rfl, hne⟩ | ⟨rfl, b, rfl⟩ | ⟨rfl, s, rfl⟩)
    · exact .typeName hne
    · exact .required b
    · exact .description s

theorem satisfies_referenceSchema_iff (value : Json) :
    Satisfies referenceSchema value ↔ IsReference value := by
  simp only [referenceSchema, Satisfies, and_true]
  refine satisfies_record_iff (by decide) (fun key field => ?_) value
  simp only [referenceEntry_iff, List.exists_mem_cons_iff, List.not_mem_nil, false_and,
    exists_false, or_false, satisfies_nonempty_iff, satisfies_boolean_iff, satisfies_string_iff]

theorem metricEntry_iff (key : String) (value : Json) :
    MetricEntry (key, value)
      ↔ (key = "name" ∧ ∃ s, value = .string s ∧ IsMetricName s)
        ∨ (key = "description" ∧ ∃ s, value = .string s)
        ∨ (key = "unit" ∧ ∃ s ∈ units, value = .string s)
        ∨ (key = "passive" ∧ ∃ b, value = .bool b)
        ∨ (key = "trackPerformance" ∧ ∃ b, value = .bool b)
        ∨ (key = "metadata" ∧ IsListOf IsReference value) := by
  constructor
  · rintro (@⟨s, hname⟩ | s | @⟨s, hunit⟩ | b | b | hvalue)
    · exact .inl ⟨rfl, s, rfl, hname⟩
    · exact .inr (.inl ⟨rfl, s, rfl⟩)
    · exact .inr (.inr (.inl ⟨rfl, s, hunit, rfl⟩))
    · exact .inr (.inr (.inr (.inl ⟨rfl, b, rfl⟩)))
    · exact .inr (.inr (.inr (.inr (.inl ⟨rfl, b, rfl⟩))))
    · exact .inr (.inr (.inr (.inr (.inr ⟨rfl, hvalue⟩))))
  · rintro (⟨rfl, s, rfl, hname⟩ | ⟨rfl, s, rfl⟩ | ⟨rfl, s, hunit, rfl⟩ | ⟨rfl, b, rfl⟩
      | ⟨rfl, b, rfl⟩ | ⟨rfl, hvalue⟩)
    · exact .name hname
    · exact .description s
    · exact .unit hunit
    · exact .passive b
    · exact .trackPerformance b
    · exact .metadata hvalue

theorem satisfies_metricSchema_iff (value : Json) :
    Satisfies metricSchema value ↔ IsMetric value := by
  simp only [metricSchema, Satisfies, and_true]
  refine satisfies_record_iff (by decide) (fun key field => ?_) value
  simp only [metricEntry_iff, List.exists_mem_cons_iff, List.not_mem_nil, false_and, exists_false,
    or_false, satisfies_pattern_iff, satisfies_string_iff, satisfies_enum_iff,
    satisfies_boolean_iff, satisfies_list_iff satisfies_referenceSchema_iff,
    metricNamePattern_matches_iff]

theorem documentEntry_iff (key : String) (value : Json) :
    DocumentEntry (key, value)
      ↔ (key = "types" ∧ IsListOf IsMetadataType value)
        ∨ (key = "metrics" ∧ IsListOf IsMetric value) := by
  constructor
  · rintro (hvalue | hvalue)
    · exact .inl ⟨rfl, hvalue⟩
    · exact .inr ⟨rfl, hvalue⟩
  · rintro (⟨rfl, hvalue⟩ | ⟨rfl, hvalue⟩)
    · exact .types hvalue
    · exact .metrics hvalue

/-- The schema describes exactly the documents of the format. -/
theorem satisfies_schema_iff (value : Json) : Satisfies schema value ↔ IsDocument value := by
  have hrequired : RuleSatisfies (.required []) value := by
    cases value <;> simp [RuleSatisfies, Rule.Holds]
  simp only [schema, Satisfies, and_true]
  refine (and_congr_right fun _ => (and_iff_right hrequired).symm).trans
    (satisfies_record_iff (by decide) (fun key field => ?_) value)
  simp only [documentEntry_iff, List.exists_mem_cons_iff, List.not_mem_nil, false_and,
    exists_false, or_false, satisfies_list_iff satisfies_metadataTypeSchema_iff,
    satisfies_list_iff satisfies_metricSchema_iff]

theorem violations_eq_nil_iff_isDocument (value : Json) :
    violations value = [] ↔ IsDocument value := by
  rw [violations, violations_eq_nil_iff, satisfies_schema_iff]

end TelemetryTypes.Definitions
