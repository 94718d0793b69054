import TelemetryTypes.Proofs.Json.Entries
import TelemetryTypes.Proofs.Schema.Place

/-!
# What a report has for each place

In a schema that has every keyword and every property once, and a value that has every key once,
what is found within a place is found there whichever of the places around it is looked at
(`filter_within_of_reaches`). So a report has for each place and each of its rules just what the
rule reports there: nothing if the value is as the keyword asks, one violation for each name that a
required property is missing under, and else a single one.
-/

namespace TelemetryTypes.Schema

/-! ### Schemas that name their parts once -/

/-- A segment of a path that needs no escapes. -/
def isPlainSegment (segment : String) : Bool := segment.toList.all fun c => c != '/' && c != '~'

mutual

/-- Whether a schema has every keyword and every property once, down to the schemas it leads to. -/
def wellFormed : List Rule → Bool
  | [] => true
  | r :: rest => !rest.any (·.keyword == r.keyword) && ruleWellFormed r && wellFormed rest

def ruleWellFormed : Rule → Bool
  | .properties known => propertiesWellFormed known
  | .items schema => wellFormed schema
  | .reference schema => wellFormed schema
  | _ => true

def propertiesWellFormed : List (String × List Rule) → Bool
  | [] => true
  | (name, schema) :: rest =>
    !rest.any (·.1 == name) && isPlainSegment name && wellFormed schema && propertiesWellFormed rest

end

theorem wellFormed_iff (schema : List Rule) :
    wellFormed schema = true
      ↔ (schema.map Rule.keyword).Nodup ∧ ∀ r ∈ schema, ruleWellFormed r = true := by
  induction schema with
  | nil => simp [wellFormed]
  | cons r rest ih =>
      simp only [wellFormed, Bool.and_eq_true, ih, Bool.not_eq_true', List.any_eq_false, beq_iff_eq,
        List.map_cons, List.nodup_cons, List.mem_map, not_exists, not_and, List.forall_mem_cons]
      tauto

theorem propertiesWellFormed_iff (known : List (String × List Rule)) :
    propertiesWellFormed known = true
      ↔ (known.map Prod.fst).Nodup ∧ ∀ property ∈ known,
          isPlainSegment property.1 = true ∧ wellFormed property.2 = true := by
  induction known with
  | nil => simp [propertiesWellFormed]
  | cons property rest ih =>
      obtain ⟨name, schema⟩ := property
      simp only [propertiesWellFormed, Bool.and_eq_true, ih, Bool.not_eq_true', List.any_eq_false,
        beq_iff_eq, List.map_cons, List.nodup_cons, List.mem_map, not_exists, not_and,
        List.forall_mem_cons]
      tauto

/-! ### Paths tell rules apart -/

/-- The keywords of the rules that judge a value themselves. -/
def assertionKeywords : List String :=
  ["type", "required", "pattern", "enum", "minItems", "minLength", "uniqueItems", "not",
    "additionalProperties"]

theorem Rule.keyword_mem (r : Rule) : r.keyword ∈ "items" :: "$ref" :: assertionKeywords := by
  cases r <;> simp [keyword, assertionKeywords]

theorem Rule.keyword_mem_of_not_holds {r : Rule} {value : Json} (h : ¬r.Holds value) :
    r.keyword ∈ assertionKeywords := by
  cases r with
  | items _ => exact absurd trivial h
  | reference _ => exact absurd trivial h
  | _ => simp [keyword, assertionKeywords]

/-- The keyword of the rule that a segment of a path belongs to. -/
def keywordOfSegment (segment : String) : String :=
  if segment = "properties" then "additionalProperties" else segment

theorem keywordOfSegment_keyword (r : Rule) : keywordOfSegment r.keyword = r.keyword := by
  cases r <;> rfl

namespace Place

variable {p q : Place} {r : Rule} {v : Violation}

theorem location_prefix_of_leads (h : r.Leads p q) : p.location <+: q.location := by
  cases h with
  | property | item => exact List.prefix_append _ _
  | reference => exact List.prefix_rfl

theorem path_of_leads (h : r.Leads p q) :
    ∃ segment rest, q.path = p.path ++ segment :: rest ∧ keywordOfSegment segment = r.keyword := by
  cases h with
  | property => exact ⟨_, _, rfl, rfl⟩
  | item => exact ⟨_, _, rfl, rfl⟩
  | reference => exact ⟨_, _, rfl, rfl⟩

theorem path_prefix_of_leads (h : r.Leads p q) : p.path <+: q.path := by
  obtain ⟨segment, rest, hpath, -⟩ := path_of_leads h
  exact ⟨_, hpath.symm⟩

theorem path_length_of_leads (h : r.Leads p q) : p.path.length < q.path.length := by
  obtain ⟨segment, rest, hpath, -⟩ := path_of_leads h
  rw [hpath, List.length_append, List.length_cons]
  omega

theorem prefix_of_reaches (h : p.Reaches q) : p.location <+: q.location ∧ p.path <+: q.path := by
  induction h with
  | refl => exact ⟨List.prefix_rfl, List.prefix_rfl⟩
  | tail _ hnext ih =>
      obtain ⟨r, -, hleads⟩ := hnext
      exact ⟨ih.1.trans (location_prefix_of_leads hleads), ih.2.trans (path_prefix_of_leads hleads)⟩

end Place

/-- A violation that is reported for a place or for one that is reached from it. -/
structure Violation.Within (v : Violation) (p : Place) : Prop where
  location : p.location <+: v.location
  path : p.path <+: v.rule
  length : p.path.length < v.rule.length

/-- A violation that is reported by a rule of the place for the value of the place. -/
structure Violation.At (v : Violation) (p : Place) (r : Rule) : Prop where
  location : v.location = p.location
  rule : v.rule = p.path ++ [r.keyword]

instance (v : Violation) (p : Place) : Decidable (v.Within p) :=
  decidable_of_iff (p.location <+: v.location ∧ p.path <+: v.rule ∧ p.path.length < v.rule.length)
    ⟨fun h => ⟨h.1, h.2.1, h.2.2⟩, fun h => ⟨h.location, h.path, h.length⟩⟩

instance (v : Violation) (p : Place) (r : Rule) : Decidable (v.At p r) :=
  decidable_of_iff (v.location = p.location ∧ v.rule = p.path ++ [r.keyword])
    ⟨fun h => ⟨h.1, h.2⟩, fun h => ⟨h.location, h.rule⟩⟩

namespace Place

variable {p q : Place} {r : Rule} {v : Violation}

theorem at_of_mem_own (hv : v ∈ p.own r) : v.At p r := by
  obtain ⟨problem, _, rfl⟩ := List.mem_map.mp hv
  exact ⟨rfl, rfl⟩

theorem within_of_at (h : v.At p r) : v.Within p where
  location := h.location ▸ List.prefix_rfl
  path := h.rule ▸ List.prefix_append _ _
  length := by rw [h.rule, List.length_append, List.length_singleton]; omega

theorem within_of_reaches (h : p.Reaches q) (hv : v.Within q) : v.Within p where
  location := (prefix_of_reaches h).1.trans hv.location
  path := (prefix_of_reaches h).2.trans hv.path
  length := Nat.lt_of_le_of_lt (prefix_of_reaches h).2.length_le hv.length

theorem within_of_mem (hv : v ∈ p.violations) : v.Within p := by
  obtain ⟨q, hreaches, r, _, hown⟩ := exists_reaches_of_mem hv
  exact within_of_reaches hreaches (within_of_at (at_of_mem_own hown))

/-- The first segment that a path has below a place says which rule of the place was applied. -/
theorem segment_of_mem (hv : v ∈ ruleViolations p.location p.path r p.value) :
    ∃ segment rest, v.rule = p.path ++ segment :: rest ∧ keywordOfSegment segment = r.keyword := by
  obtain ⟨inner, heq, hinner⟩ := ruleViolations_eq_append p r
  rw [heq] at hv
  rcases List.mem_append.mp hv with hv | hown
  · obtain ⟨q, hleads, hv⟩ := hinner v hv
    obtain ⟨segment, rest, hpath, hkeyword⟩ := path_of_leads hleads
    obtain ⟨last, hrule⟩ := (within_of_mem hv).path
    exact ⟨segment, rest ++ last, by rw [← hrule, hpath]; simp, hkeyword⟩
  · exact ⟨_, [], (at_of_mem_own hown).rule, keywordOfSegment_keyword r⟩

/-! ### Places of a well-formed schema -/

/-- The schema has its parts once and the value its keys. -/
structure WellFormed (p : Place) : Prop where
  schema : wellFormed p.schema = true
  value : p.value.Canonical

theorem WellFormed.of_leads (h : p.WellFormed) (hr : r ∈ p.schema) (hleads : r.Leads p q) :
    q.WellFormed := by
  have hrule := ((wellFormed_iff p.schema).mp h.schema).2 r hr
  have hvalue := h.value
  cases hleads with
  | property heq hknown hentry =>
      rw [ruleWellFormed, propertiesWellFormed_iff] at hrule
      exact ⟨(hrule.2 _ hknown).2, Json.Canonical.entry (heq ▸ hvalue) hentry⟩
  | item heq hitem =>
      exact ⟨hrule, Json.Canonical.item (heq ▸ hvalue) (List.mem_of_getElem? hitem)⟩
  | reference => exact ⟨hrule, hvalue⟩

theorem WellFormed.of_reaches (h : p.WellFormed) (hreaches : p.Reaches q) : q.WellFormed := by
  induction hreaches with
  | refl => exact h
  | tail _ hnext ih =>
      obtain ⟨r, hr, hleads⟩ := hnext
      exact ih.of_leads hr hleads

/-- Of the violations whose path goes through a rule, all come from that rule. -/
theorem WellFormed.filter_rule (h : p.WellFormed) (hr : r ∈ p.schema) {P : Violation → Bool}
    (hP : ∀ v, P v = true → ∃ segment rest, v.rule = p.path ++ segment :: rest
      ∧ keywordOfSegment segment = r.keyword) :
    p.violations.filter P = (ruleViolations p.location p.path r p.value).filter P := by
  have hnodup := ((wellFormed_iff p.schema).mp h.schema).1
  rw [violations, violations_eq_flatMap, List.filter_flatMap]
  refine flatMap_of_mem_of_nodup hnodup hr fun other _ hne => ?_
  rw [List.filter_eq_nil_iff]
  intro v hv hPv
  obtain ⟨segment, rest, hrule, hkeyword⟩ := hP v hPv
  obtain ⟨segment', rest', hrule', hkeyword'⟩ := segment_of_mem hv
  obtain ⟨rfl, -⟩ := List.cons.inj (List.append_cancel_left (hrule.symm.trans hrule'))
  exact hne (hkeyword'.symm.trans hkeyword)

theorem filter_within_own (h : r.Leads p q) : (p.own r).filter (·.Within q) = [] := by
  rw [List.filter_eq_nil_iff]
  intro v hv hwithin
  have hlength := (of_decide_eq_true hwithin).length
  rw [(at_of_mem_own hv).rule, List.length_append, List.length_singleton] at hlength
  have hpath := path_length_of_leads h
  omega

theorem filter_within_self (p : Place) : p.violations.filter (·.Within p) = p.violations := by
  rw [List.filter_eq_self]
  exact fun v hv => decide_eq_true (within_of_mem hv)

/-- Within a place and within one beside it nothing is found that is the same. -/
theorem filter_within_of_step (beside : Place) {step other : Step}
    (hq : q.location = p.location ++ [step]) (hbeside : beside.location = p.location ++ [other])
    (hne : other ≠ step) : beside.violations.filter (·.Within q) = [] := by
  rw [List.filter_eq_nil_iff]
  intro v hv hwithin
  have hlocation := (of_decide_eq_true hwithin).location
  have hlength : q.location.length = beside.location.length := by simp [hq, hbeside]
  have heq := (List.prefix_of_prefix_length_le (within_of_mem hv).location hlocation
    (Nat.le_of_eq hlength.symm)).eq_of_length hlength.symm
  rw [hq, hbeside] at heq
  exact hne (List.singleton_inj.mp (List.append_cancel_left heq))

theorem propertyViolations_of_mem {location : List Step} {path : List String}
    {known : List (String × List Rule)} {key : String} {schema : List Rule} {value : Json}
    (hknown : (known.map Prod.fst).Nodup) (hmem : (key, schema) ∈ known) :
    propertyViolations location path known key value
      = Schema.violations location (path ++ ["properties", key]) schema value := by
  rw [propertyViolations_eq, find?_of_mem_of_nodup Prod.fst hknown hmem]

/-- What an entry with another key has wrong is not within the place of a property. -/
theorem filter_within_other_key {key other : String} {schema : List Rule} {value x : Json}
    (known : List (String × List Rule)) (hne : other ≠ key) :
    (propertyViolations (p.location ++ [.key other]) p.path known other x).filter
      (·.Within (p.atKey key schema value)) = [] := by
  rw [propertyViolations_eq]
  split
  · next inner _ =>
      exact filter_within_of_step (p.atKey other inner x) rfl rfl
        fun heq => hne (Step.key.inj heq)
  · rfl

/-- A rule finds within a place that it leads to what the schema of that place finds there. -/
theorem WellFormed.filter_within_rule (h : p.WellFormed) (hr : r ∈ p.schema)
    (hleads : r.Leads p q) :
    (ruleViolations p.location p.path r p.value).filter (·.Within q) = q.violations := by
  have hrule := ((wellFormed_iff p.schema).mp h.schema).2 r hr
  have hown := filter_within_own hleads
  have hvalue := h.value
  cases hleads with
  | @property _ known entries key schema value heq hknown hentry =>
      rw [ruleWellFormed, propertiesWellFormed_iff] at hrule
      rw [own, heq] at hown
      rw [heq] at hvalue ⊢
      rw [ruleViolations, List.filter_append, hown, List.append_nil, List.filter_flatMap,
        flatMap_of_mem_of_nodup hvalue.keys_nodup hentry fun other _ hne =>
          filter_within_other_key known hne,
        propertyViolations_of_mem hrule.1 hknown]
      exact filter_within_self _
  | @item _ schema items i item heq hitem =>
      have hnodup : (items.zipIdx.map Prod.snd).Nodup := by
        rw [List.zipIdx_map_snd]
        exact List.nodup_range'
      have hmem : (item, i) ∈ items.zipIdx := List.mem_zipIdx_iff_getElem?.mpr hitem
      rw [own, heq] at hown
      rw [heq, ruleViolations, List.filter_append, hown, List.append_nil, List.filter_flatMap,
        flatMap_of_mem_of_nodup hnodup hmem fun other _ hne => ?_]
      · exact filter_within_self _
      · exact filter_within_of_step (p.atIndex other.2 schema other.1) rfl rfl
          fun heq => hne (Step.index.inj heq)
  | reference =>
      rw [own] at hown
      rw [ruleViolations, List.filter_append, hown, List.append_nil]
      exact filter_within_self _

/-- What is found within a place is found there whichever place before it is looked at. -/
theorem WellFormed.filter_within_of_reaches (h : p.WellFormed) (hreaches : p.Reaches q) :
    p.violations.filter (·.Within q) = q.violations := by
  induction hreaches using Relation.ReflTransGen.head_induction_on with
  | refl => exact filter_within_self _
  | @head place next hnext hreaches ih =>
      obtain ⟨r, hr, hleads⟩ := hnext
      have hstep : place.violations.filter (·.Within next) = next.violations := by
        rw [h.filter_rule hr fun v hv => ?_, h.filter_within_rule hr hleads]
        obtain ⟨segment, rest, hpath, hkeyword⟩ := path_of_leads hleads
        obtain ⟨last, hrule⟩ := (of_decide_eq_true hv).path
        exact ⟨segment, rest ++ last, by rw [← hrule, hpath]; simp, hkeyword⟩
      rw [← ih (h.of_leads hr hleads), ← hstep, List.filter_filter]
      refine List.filter_congr fun v _ => ?_
      by_cases hv : v.Within q
      · simp [hv, within_of_reaches hreaches hv]
      · simp [hv]

/-- A rule of a place reports for the place what it finds wrong with the value there. -/
theorem WellFormed.filter_at (h : p.WellFormed) (hr : r ∈ p.schema) :
    p.violations.filter (·.At p r) = p.own r := by
  rw [h.filter_rule hr fun v hv =>
    ⟨_, [], (of_decide_eq_true hv).rule, keywordOfSegment_keyword r⟩]
  obtain ⟨inner, heq, hinner⟩ := ruleViolations_eq_append p r
  have hbelow : inner.filter (·.At p r) = [] := by
    rw [List.filter_eq_nil_iff]
    intro v hv hat
    obtain ⟨q, hleads, hv⟩ := hinner v hv
    have hlength := (within_of_mem hv).length
    rw [(of_decide_eq_true hat).rule, List.length_append, List.length_singleton] at hlength
    have hpath := path_length_of_leads hleads
    omega
  have hown : (p.own r).filter (·.At p r) = p.own r := by
    rw [List.filter_eq_self]
    exact fun v hv => decide_eq_true (at_of_mem_own hv)
  rw [heq, List.filter_append, hbelow, hown, List.nil_append]

/-- A report has for a place that is reached what each of its rules finds wrong there. -/
theorem WellFormed.filter_at_of_reaches (h : p.WellFormed) (hreaches : p.Reaches q)
    (hr : r ∈ q.schema) : p.violations.filter (·.At q r) = q.own r := by
  rw [← (h.of_reaches hreaches).filter_at hr, ← h.filter_within_of_reaches hreaches,
    List.filter_filter]
  refine List.filter_congr fun v _ => ?_
  by_cases hv : v.At q r
  · simp [hv, within_of_at hv]
  · simp [hv]

end Place

end TelemetryTypes.Schema
