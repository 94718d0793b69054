import TelemetryTypes.Proofs.Schema.Pointer

/-!
# What is found below a location

What is found below a location depends on the part of the value that is there and on nothing else:
two values with one part at one location have the same violations below it, in the same order
(`below_violations_congr`). An item of an array is such a part, so the other items do not matter.
-/

namespace TelemetryTypes.Schema

/-- The violations at a location and below it. -/
def below (location : List Step) (found : List Violation) : List Violation :=
  found.filter fun v => location <+: v.location

variable {location rest : List Step} {path : List String} {step other : Step}

theorem below_append (front back : List Violation) :
    below location (front ++ back) = below location front ++ below location back :=
  List.filter_append _ _

theorem below_flatMap {α : Type} (items : List α) (find : α → List Violation) :
    below location (items.flatMap find) = items.flatMap fun item => below location (find item) :=
  List.filter_flatMap

theorem below_own (p : Place) (r : Rule) (step : Step) (rest : List Step) :
    below (p.location ++ step :: rest) (p.own r) = [] := by
  rw [below, List.filter_eq_nil_iff]
  intro v hv hbelow
  have hlength := (of_decide_eq_true hbelow).length_le
  rw [(Place.at_of_mem_own hv).location, List.length_append, List.length_cons] at hlength
  omega

/-- What is found in a part is not below another part. -/
theorem below_other (hne : other ≠ step) (schema : List Rule) (value : Json) :
    below (location ++ step :: rest) (violations (location ++ [other]) path schema value) = [] := by
  rw [below, List.filter_eq_nil_iff]
  intro v hv hbelow
  have hpart : location ++ [step] <+: v.location := by
    refine List.IsPrefix.trans ?_ (of_decide_eq_true hbelow)
    exact ⟨rest, by simp⟩
  have hother : location ++ [other] <+: v.location :=
    (Place.within_of_mem (p := ⟨location ++ [other], path, schema, value⟩) hv).location
  have heq := (List.prefix_of_prefix_length_le hother hpart (by simp)).eq_of_length (by simp)
  exact hne (List.singleton_inj.mp (List.append_cancel_left heq))

theorem below_other_key {key name : String} (hne : key ≠ name) (known : List (String × List Rule))
    (value : Json) :
    below (location ++ .key name :: rest)
      (propertyViolations (location ++ [.key key]) path known key value) = [] := by
  rw [propertyViolations_eq]
  split
  · exact below_other (fun heq => hne (Step.key.inj heq)) _ value
  · rfl

/-! ### One rule, for one part -/

/-- Below a property a rule finds what the schema of the property finds in it. -/
theorem below_properties {entries : List (String × Json)} {name : String} {value : Json}
    (hnodup : (entries.map Prod.fst).Nodup) (hmem : (name, value) ∈ entries)
    (known : List (String × List Rule)) :
    below (location ++ .key name :: rest)
        (ruleViolations location path (.properties known) (.object entries))
      = below (location ++ .key name :: rest)
          (propertyViolations (location ++ [.key name]) path known name value) := by
  rw [ruleViolations, below_append, below_flatMap,
    flatMap_of_mem_of_nodup hnodup hmem fun entry _ hne => below_other_key hne known entry.2]
  have hown := below_own ⟨location, path, [], .object entries⟩ (.properties known) (.key name) rest
  rw [Place.own] at hown
  rw [hown, List.append_nil]

/-- Below an item a rule finds what the schema of the items finds in it. -/
theorem below_items {items : List Json} {i : Nat} {item : Json} (hitem : items[i]? = some item)
    (schema : List Rule) :
    below (location ++ .index i :: rest)
        (ruleViolations location path (.items schema) (.array items))
      = below (location ++ .index i :: rest)
          (violations (location ++ [.index i]) (path ++ ["items"]) schema item) := by
  have hnodup : (items.zipIdx.map Prod.snd).Nodup := by
    rw [List.zipIdx_map_snd]
    exact List.nodup_range'
  have hmem : (item, i) ∈ items.zipIdx := List.mem_zipIdx_iff_getElem?.mpr hitem
  rw [ruleViolations, below_append, below_flatMap, flatMap_of_mem_of_nodup hnodup hmem
    fun other _ hne => below_other (fun heq => hne (Step.index.inj heq)) schema other.1]
  have hown := below_own ⟨location, path, [], .array items⟩ (.items schema) (.index i) rest
  rw [Place.own] at hown
  rw [hown, List.append_nil]

theorem below_reference (schema : List Rule) (value : Json) :
    below (location ++ step :: rest) (ruleViolations location path (.reference schema) value)
      = below (location ++ step :: rest)
          (violations location (path ++ ["$ref"]) schema value) := by
  have hown := below_own ⟨location, path, [], value⟩ (.reference schema) step rest
  rw [Place.own] at hown
  rw [ruleViolations, below_append, hown, List.append_nil]

theorem below_rule {value part : Json} (hvalue : value.Canonical)
    (hpart : value.part? step = some part) (r : Rule) :
    below (location ++ step :: rest) (ruleViolations location path r value)
      = match r, step with
        | .properties known, .key name => below (location ++ step :: rest)
            (propertyViolations (location ++ [.key name]) path known name part)
        | .items schema, .index i => below (location ++ step :: rest)
            (violations (location ++ [.index i]) (path ++ ["items"]) schema part)
        | .reference schema, _ => below (location ++ step :: rest)
            (violations location (path ++ ["$ref"]) schema value)
        | _, _ => [] := by
  have hown := below_own ⟨location, path, [], value⟩ r step rest
  rw [Place.own] at hown
  cases step with
  | key name =>
      cases value with
      | object entries =>
          cases r with
          | properties known =>
              exact below_properties hvalue.keys_nodup (Json.mem_of_lookup hpart) known
          | reference schema => exact below_reference schema _
          | _ => simpa only [ruleViolations] using hown
      | _ => cases hpart
  | index i =>
      cases value with
      | array items =>
          cases r with
          | items schema => exact below_items hpart schema
          | reference schema => exact below_reference schema _
          | _ => simpa only [ruleViolations] using hown
      | _ => cases hpart

/-! ### Two values with one part -/

/-- Two values that have the same part at a location. -/
structure Share (value other : Json) (location : List Step) : Prop where
  canonical : value.Canonical ∧ other.Canonical
  part : ∃ x, value.at? location = some x ∧ other.at? location = some x

theorem Share.cons {value other : Json} (h : Share value other (step :: rest)) :
    ∃ part part', value.part? step = some part ∧ other.part? step = some part'
      ∧ Share part part' rest := by
  obtain ⟨⟨hvalue, hother⟩, x, hat, hat'⟩ := h
  obtain ⟨part, hpart, hrest⟩ := Option.bind_eq_some_iff.mp hat
  obtain ⟨part', hpart', hrest'⟩ := Option.bind_eq_some_iff.mp hat'
  exact ⟨part, part', hpart, hpart', ⟨hvalue.part hpart, hother.part hpart'⟩, x, hrest, hrest'⟩

theorem below_violations_of_rules {target location : List Step} {value other : Json}
    {schema : List Rule}
    (h : ∀ r ∈ schema, below target (ruleViolations location path r value)
      = below target (ruleViolations location path r other)) :
    below target (violations location path schema value)
      = below target (violations location path schema other) := by
  rw [violations_eq_flatMap, violations_eq_flatMap, below_flatMap, below_flatMap]
  exact List.flatMap_congr h

theorem below_ruleViolations_congr {r : Rule} {value other : Json} (h : Share value other rest) :
    below (location ++ rest) (ruleViolations location path r value)
      = below (location ++ rest) (ruleViolations location path r other) := by
  induction r using Rule.induction generalizing value other location rest path with
  | step r ih =>
      cases rest with
      | nil =>
          obtain ⟨x, hvalue, hother⟩ := h.part
          obtain rfl : value = other := Option.some.inj (hvalue.trans hother.symm)
          rfl
      | cons step rest =>
          obtain ⟨part, part', hpart, hpart', hrest⟩ := h.cons
          have hinner {schema : List Rule} (hschema : schema ∈ r.subschemas) (path : List String) :
              below (location ++ step :: rest) (violations (location ++ [step]) path schema part)
                = below (location ++ step :: rest)
                    (violations (location ++ [step]) path schema part') := by
            rw [List.append_cons]
            exact below_violations_of_rules fun s hs => ih schema hschema s hs hrest
          rw [below_rule h.canonical.1 hpart, below_rule h.canonical.2 hpart']
          cases r with
          | properties known =>
              cases step with
              | key name =>
                  dsimp only
                  rw [propertyViolations_eq, propertyViolations_eq]
                  cases hfind : known.find? (·.1 == name) with
                  | none => rfl
                  | some property =>
                      exact hinner (List.mem_map_of_mem (List.mem_of_find?_eq_some hfind)) _
              | index _ => rfl
          | items schema =>
              cases step with
              | key _ => rfl
              | index i => exact hinner (List.mem_singleton_self schema) _
          | reference schema =>
              exact below_violations_of_rules fun s hs =>
                ih schema (List.mem_singleton_self schema) s hs h
          | _ => rfl

/-- Below a location two values have the same violations if they have the same part there. -/
theorem below_violations_congr (location : List Step) {value other : Json} (schema : List Rule)
    (h : Share value other rest) :
    below (location ++ rest) (violations location path schema value)
      = below (location ++ rest) (violations location path schema other) :=
  below_violations_of_rules fun _ _ => below_ruleViolations_congr h

end TelemetryTypes.Schema
