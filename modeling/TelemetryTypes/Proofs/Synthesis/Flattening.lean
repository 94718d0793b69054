import TelemetryTypes.Proofs.Synthesis.Lookup

/-!
# What a metric's interface comes to

An interface says what it adds to the base type, and redeclares a property of the base type where
the metric requires it. `Flattens` says what the two together have to mean for every name, in terms
of the definitions alone: which names are properties, of which type, and which are required.
`interfaces_flatten` says that those of every metric of every source do.
-/

namespace TelemetryTypes

open MetadataType (first? firstD)

/-- The property of a name: the one an interface declares itself, or else that of its base. -/
def property? (base own : Interface) (name : String) : Option Field :=
  (own.field? name).or (base.field? name)

/-- The type that a name has in a source: that of the client's field, or else that of the first
type declared by that name. -/
def Definitions.propertyType? (d : Definitions) (name : String) : Option TypeExpr :=
  match ClientField.all.find? (·.name == name) with
  | some f => some (.ofKind f.kind)
  | none => (d.metadataType? name).bind MetadataType.target?

/-- What the base type and the interface of a metric say together. -/
structure Flattens (d : Definitions) (c : Config) (m : Metric) (base own : Interface) : Prop where
  base_nodup : (base.fields.map Field.name).Nodup
  own_nodup : (own.fields.map Field.name).Nodup
  mem_iff : ∀ name, name ∈ own.fields.map Field.name ∨ name ∈ base.fields.map Field.name
    ↔ name ∈ c.commonMetadata ∨ name ∈ ClientField.all.map ClientField.name
      ∨ name ∈ m.metadata.map Reference.typeName
  type_eq : ∀ name f, property? base own name = some f → d.propertyType? name = some f.type
  /-- A property is required exactly when the first reference to its name is. -/
  required_iff : ∀ name f, property? base own name = some f → (f.optional = false
    ↔ ∃ r, m.metadata.find? (·.typeName == name) = some r ∧ r.required ≠ some false)
  /-- A property of the base type is redeclared only to require it, with its type unchanged. -/
  narrows : ∀ name f g, own.field? name = some f → base.field? name = some g →
    f.type = g.type ∧ f.optional = false

namespace Synthesis

variable (types : List MetadataType) (c : Config)

/-! ### The base type -/

theorem map_name_baseTypeOf : (baseTypeOf types c).fields.map Field.name
    = c.commonMetadata ++ ClientField.all.map ClientField.name := by
  simp [baseTypeOf, commonFieldOf, ClientField.toField, Function.comp_def]

theorem nodup_baseTypeOf (h : c.Valid) : ((baseTypeOf types c).fields.map Field.name).Nodup := by
  rw [map_name_baseTypeOf, List.nodup_append]
  refine ⟨h.common_nodup, by decide, fun name hcommon other hclient heq => ?_⟩
  obtain ⟨f, hf, hname⟩ := List.mem_map.mp hclient
  have hfree := h.common_free name hcommon
  rw [ClientField.isReserved, List.any_eq_false] at hfree
  exact hfree f hf (by simp [hname, heq])

theorem isReserved_eq (name : String) :
    ClientField.isReserved name = (ClientField.all.find? (·.name == name)).isSome := by
  rw [ClientField.isReserved, Bool.eq_iff_iff, List.any_eq_true, List.find?_isSome]

/-- A common name finds its own field in the base type, and any other name the client's. -/
theorem field?_baseTypeOf (name : String) :
    (baseTypeOf types c).field? name
      = if name ∈ c.commonMetadata then some (commonFieldOf types name)
        else (ClientField.all.find? (·.name == name)).map ClientField.toField := by
  have hcommon : (c.commonMetadata.map (commonFieldOf types)).find? (·.name == name)
      = if name ∈ c.commonMetadata then some (commonFieldOf types name) else none := by
    simp only [List.find?_map, Function.comp_def, commonFieldOf, find?_beq]
    split <;> rfl
  rw [Interface.field?, baseTypeOf, List.find?_append, hcommon, List.find?_map]
  split <;> rfl

/-! ### The interface of a metric -/

theorem map_name_interface (m : Metric) :
    ((metricOf types c m).interface c.baseTypeName).fields.map Field.name
      = ((effectiveReferences m).filter fun r => !c.isCommon r.typeName || r.isRequired).map
          Reference.typeName := by
  simp only [ResolvedMetric.interface, metricOf, List.filter_map, List.map_map, Function.comp_def,
    ResolvedField.toField, ResolvedField.isDeclared, fieldOf]

theorem nodup_interface (m : Metric) :
    (((metricOf types c m).interface c.baseTypeName).fields.map Field.name).Nodup := by
  rw [map_name_interface]
  exact (nodup_map_keepFirst Reference.typeName m.metadata).sublist (List.filter_sublist.map _)

/-- A name finds in the interface of a metric what the first reference to it declares there. -/
theorem field?_interface (m : Metric) (name : String) :
    ((metricOf types c m).interface c.baseTypeName).field? name
      = ((m.metadata.find? (·.typeName == name)).filter
          fun r => !c.isCommon r.typeName || r.isRequired).map fun r => (fieldOf types c r).toField := by
  rw [← find?_keepFirst Reference.typeName m.metadata name,
    ← find?_filter_of_nodup Reference.typeName (nodup_map_keepFirst Reference.typeName m.metadata)]
  simp only [Interface.field?, ResolvedMetric.interface, metricOf, List.filter_map, List.map_map,
    List.find?_map, Function.comp_def, ResolvedField.toField, ResolvedField.isDeclared, fieldOf,
    effectiveReferences]

end Synthesis

namespace Acceptable

variable {d : Definitions} {c : Config}

theorem mem_carriedNames {m : Metric} {r : Reference} (hm : m ∈ d.metrics) (hr : r ∈ m.metadata) :
    r.typeName ∈ d.carriedNames c :=
  List.mem_append_right _ (List.mem_flatMap.mpr ⟨m, hm, List.mem_map_of_mem hr⟩)

/-- A carried name that is not the client's has the type of the first type declared by it. -/
theorem propertyType?_eq (h : Acceptable d c) {name : String} (hname : name ∈ d.carriedNames c)
    (hfree : ClientField.isReserved name = false) :
    d.propertyType? name = some (firstD d.types name).target := by
  obtain ⟨t, hfirst, htarget⟩ := ((resolves_iff d name).mpr (h.declared name hname)).exists_target
  have hnone : ClientField.all.find? (·.name == name) = none := by
    rw [Synthesis.isReserved_eq, Option.isSome_eq_false_iff, Option.isNone_iff_eq_none] at hfree
    exact hfree
  rw [Definitions.propertyType?, hnone]
  exact Option.bind_eq_some_iff.mpr ⟨t, hfirst, htarget⟩

end Acceptable

namespace Synthesis

variable {d : Definitions} {c : Config} {m : Metric}

/-- A property that a metric declares itself comes from its first reference to the name. -/
theorem own_field_cases {types : List MetadataType} {name : String} {f : Field}
    (hown : ((metricOf types c m).interface c.baseTypeName).field? name = some f) :
    ∃ r, m.metadata.find? (·.typeName == name) = some r ∧ r.typeName = name
      ∧ (name ∈ c.commonMetadata → r.isRequired = true) ∧ f = (fieldOf types c r).toField := by
  rw [field?_interface, Option.map_eq_some_iff] at hown
  obtain ⟨r, hr, rfl⟩ := hown
  obtain ⟨hfind, hdeclared⟩ := Option.filter_eq_some_iff.mp hr
  have hname : r.typeName = name := by simpa using List.find?_some hfind
  refine ⟨r, hfind, hname, fun hcommon => ?_, rfl⟩
  simpa [Config.isCommon, hname, hcommon] using hdeclared

theorem mem_interface_iff {types : List MetadataType} {name : String} :
    name ∈ ((metricOf types c m).interface c.baseTypeName).fields.map Field.name
      ↔ ∃ r ∈ effectiveReferences m, r.typeName = name
        ∧ (name ∈ c.commonMetadata → r.isRequired = true) := by
  rw [map_name_interface, List.mem_map]
  constructor
  · rintro ⟨r, hr, rfl⟩
    obtain ⟨hmem, hdeclared⟩ := List.mem_filter.mp hr
    refine ⟨r, hmem, rfl, fun hcommon => ?_⟩
    simpa [Config.isCommon, hcommon] using hdeclared
  · rintro ⟨r, hmem, rfl, hrequired⟩
    refine ⟨r, List.mem_filter.mpr ⟨hmem, ?_⟩, rfl⟩
    by_cases hcommon : r.typeName ∈ c.commonMetadata
    · simp [hrequired hcommon]
    · simp [Config.isCommon, hcommon]

theorem optional_of_field?_baseTypeOf {types : List MetadataType} {name : String} {f : Field}
    (hbase : (baseTypeOf types c).field? name = some f) : f.optional = true := by
  rw [field?_baseTypeOf] at hbase
  split at hbase
  · cases hbase
    rfl
  · obtain ⟨client, _, rfl⟩ := Option.map_eq_some_iff.mp hbase
    rfl

/-! ### Both together -/

theorem mem_flattened_iff (name : String) :
    name ∈ ((metricOf d.types c m).interface c.baseTypeName).fields.map Field.name
        ∨ name ∈ (baseTypeOf d.types c).fields.map Field.name
      ↔ name ∈ c.commonMetadata ∨ name ∈ ClientField.all.map ClientField.name
        ∨ name ∈ m.metadata.map Reference.typeName := by
  rw [map_name_baseTypeOf, List.mem_append, mem_interface_iff,
    ← mem_map_keepFirst Reference.typeName m.metadata]
  constructor
  · rintro (⟨r, hr, rfl, _⟩ | hcommon | hclient)
    · exact .inr (.inr (List.mem_map_of_mem hr))
    · exact .inl hcommon
    · exact .inr (.inl hclient)
  · rintro (hcommon | hclient | hreferred)
    · exact .inr (.inl hcommon)
    · exact .inr (.inr hclient)
    · by_cases hcommon : name ∈ c.commonMetadata
      · exact .inr (.inl hcommon)
      · obtain ⟨r, hr, hname⟩ := List.mem_map.mp hreferred
        exact .inl ⟨r, hr, hname, fun h => absurd h hcommon⟩

theorem propertyType?_of_property? (h : Acceptable d c) (hm : m ∈ d.metrics) {name : String}
    {f : Field} (hproperty : property? (baseTypeOf d.types c)
      ((metricOf d.types c m).interface c.baseTypeName) name = some f) :
    d.propertyType? name = some f.type := by
  rcases Option.or_eq_some_iff.mp hproperty with hown | ⟨_, hbase⟩
  · obtain ⟨r, hfind, rfl, _, rfl⟩ := own_field_cases hown
    have hr := List.mem_of_find?_eq_some hfind
    exact h.propertyType?_eq (Acceptable.mem_carriedNames hm hr) (h.unreserved m hm r hr)
  · rw [field?_baseTypeOf] at hbase
    by_cases hcommon : name ∈ c.commonMetadata
    · rw [if_pos hcommon] at hbase
      cases hbase
      exact h.propertyType?_eq (List.mem_append_left _ hcommon)
        (h.settings.common_free name hcommon)
    · rw [if_neg hcommon, Option.map_eq_some_iff] at hbase
      obtain ⟨client, hclient, rfl⟩ := hbase
      simp [Definitions.propertyType?, hclient, ClientField.toField]

theorem required_iff_of_property? {types : List MetadataType} {name : String} {f : Field}
    (hproperty : property? (baseTypeOf types c)
      ((metricOf types c m).interface c.baseTypeName) name = some f) :
    f.optional = false
      ↔ ∃ r, m.metadata.find? (·.typeName == name) = some r ∧ r.required ≠ some false := by
  rcases Option.or_eq_some_iff.mp hproperty with hown | ⟨hnone, hbase⟩
  · obtain ⟨r, hfind, _, _, rfl⟩ := own_field_cases hown
    simp [ResolvedField.toField, fieldOf, hfind, Reference.isRequired_eq]
  · -- The metric leaves the name to the base type, so its first reference does not require it.
    refine iff_of_false (by simp [optional_of_field?_baseTypeOf hbase]) ?_
    rintro ⟨r, hfind, hrequired⟩
    have hisRequired : r.isRequired = true := by simpa [Reference.isRequired_eq] using hrequired
    simp [field?_interface, hfind, Option.filter, hisRequired] at hnone

theorem narrows_baseTypeOf (h : Acceptable d c) (hm : m ∈ d.metrics) {name : String} {f g : Field}
    (hown : ((metricOf d.types c m).interface c.baseTypeName).field? name = some f)
    (hbase : (baseTypeOf d.types c).field? name = some g) :
    f.type = g.type ∧ f.optional = false := by
  obtain ⟨r, hfind, rfl, hrequired, rfl⟩ := own_field_cases hown
  have hr := List.mem_of_find?_eq_some hfind
  have hcommon : r.typeName ∈ c.commonMetadata := by
    by_contra hnot
    have hfree := h.unreserved m hm r hr
    rw [field?_baseTypeOf, if_neg hnot, Option.map_eq_some_iff] at hbase
    obtain ⟨client, hclient, _⟩ := hbase
    simp [isReserved_eq, hclient] at hfree
  rw [field?_baseTypeOf, if_pos hcommon] at hbase
  cases hbase
  exact ⟨rfl, by simp [ResolvedField.toField, fieldOf, hrequired hcommon]⟩

theorem flattens (h : Acceptable d c) (hm : m ∈ d.metrics) :
    Flattens d c m (baseTypeOf d.types c) ((metricOf d.types c m).interface c.baseTypeName) where
  base_nodup := nodup_baseTypeOf d.types c h.settings
  own_nodup := nodup_interface d.types c m
  mem_iff := mem_flattened_iff
  type_eq _ _ hproperty := propertyType?_of_property? h hm hproperty
  required_iff _ _ hproperty := required_iff_of_property? hproperty
  narrows _ _ _ hown hbase := narrows_baseTypeOf h hm hown hbase

end Synthesis

/-- **Base type and metric flatten as the definitions say.** The interface of a metric extends the
base type; the two have no property twice, have exactly the carried names, give each the type and
the requiredness that the definitions give it, and where both have a name the metric narrows it. -/
theorem interfaces_flatten {d : Definitions} {c : Config} {u : SourceUnit}
    (h : generate d c = .ok u) {m : Metric} (hm : m ∈ d.metrics) :
    ∃ base own, u.interface? c.baseTypeName = some base ∧ u.interface? m.typeName = some own
      ∧ base.extends? = none ∧ own.extends? = some base.name ∧ Flattens d c m base own := by
  obtain ⟨hacceptable, rfl⟩ := (generate_eq_ok_iff_acceptable d c u).mp h
  exact ⟨Synthesis.baseTypeOf d.types c,
    (Synthesis.metricOf d.types c m).interface c.baseTypeName,
    Synthesis.interface?_baseType d c, Synthesis.interface?_metric hacceptable hm, rfl, rfl,
    Synthesis.flattens hacceptable hm⟩

theorem interfaces_flatten_sample :
    generate .sample .sample = .ok (Synthesis.unitOf .sample .sample)
      ∧ ∀ m ∈ Definitions.sample.metrics, ∃ base own,
        (Synthesis.unitOf .sample .sample).interface? "MetricBase" = some base
          ∧ (Synthesis.unitOf .sample .sample).interface? m.typeName = some own
          ∧ base.extends? = none ∧ own.extends? = some base.name
          ∧ Flattens .sample .sample m base own :=
  ⟨generate_sample, fun _ hm => interfaces_flatten generate_sample hm⟩

end TelemetryTypes
