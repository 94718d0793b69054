import TelemetryTypes.Proofs.Definitions.Lawful
import TelemetryTypes.Proofs.Synthesis.Exports
import TelemetryTypes.Proofs.Synthesis.References

/-!
# Names in the source of accepted documents

A run checks the names of the settings and of the metrics' types and no others; that the rest can
stand bare in the source is owed to the schema. The name of a union is the Pascal case of a type
name, a property has the name of a declared type, and a metric name that starts with a digit has a
Pascal case that the run refuses.
-/

namespace TelemetryTypes

open Text (isIdentifier propertyKey)

/-- The names that a declaration writes as property keys or as names of accessors. -/
def Declaration.keys : Declaration → List String
  | interface i => i.fields.map Field.name
  | shapeMap entries => entries.map Prod.fst
  | definitionsTable table => table.entries.map Prod.fst
  | accessorBase client => client.accessors.map Accessor.metric
  | union _ | definitionShape | nameUnion | metadataOverride _ _ | span _ | recorder _ => []

/-- A unit all of whose names can be written as they are. -/
structure SourceUnit.Legal (u : SourceUnit) : Prop where
  declarations : ∀ declaration ∈ u.declarations, isIdentifier declaration.name = true
  metrics : ∀ m ∈ u.metrics, isIdentifier m.name = true
  fields : ∀ m ∈ u.metrics, ∀ f ∈ m.fields, isIdentifier f.name = true
  keys : ∀ declaration ∈ u.declarations, ∀ key ∈ declaration.keys,
    isIdentifier key = true ∧ propertyKey key = key
  unions : ∀ v ∈ u.unions, v.literals ≠ [] ∧ v.literals.Nodup
  accessors : ∀ client, .accessorBase client ∈ u.declarations →
    (client.accessors.map Accessor.metric).Nodup
      ∧ ∀ a ∈ client.accessors, a.metric ∉ ["getMetric", "constructor"]
  units : ∀ table, .definitionsTable table ∈ u.declarations →
    ∀ entry ∈ table.entries, entry.2.unit ∈ ["None", "Milliseconds", "Bytes", "Percent", "Count"]

namespace Synthesis

variable (c : Config) (d : Definitions)

theorem map_metric_accessors :
    (AccessorClass.ofMetrics c.clientClassName (metricsOf c d)).accessors.map Accessor.metric
      = d.metrics.map Metric.name := by
  simp only [AccessorClass.ofMetrics, metricsOf, List.map_map]
  rfl

theorem accessorBase_mem_unitOf {client : AccessorClass}
    (h : .accessorBase client ∈ (unitOf c d).declarations) :
    client = .ofMetrics c.clientClassName (metricsOf c d) := by
  simpa [unitOf, assemble] using h

theorem definitionsTable_mem_unitOf {table : RuntimeTable}
    (h : .definitionsTable table ∈ (unitOf c d).declarations) :
    table = .ofMetrics (metricsOf c d) := by
  simpa [unitOf, assemble] using h

theorem shapeMap_mem_unitOf {entries : List (String × String)}
    (h : .shapeMap entries ∈ (unitOf c d).declarations) :
    entries = (metricsOf c d).map fun m => (m.name, m.typeName) := by
  simpa [unitOf, assemble] using h

/-- A key is the name of a property of an interface, or of a metric. -/
theorem mem_keys_unitOf {declaration : Declaration}
    (hmem : declaration ∈ (unitOf c d).declarations) {key : String}
    (hkey : key ∈ declaration.keys) :
    (∃ i ∈ (unitOf c d).interfaces, ∃ f ∈ i.fields, f.name = key)
      ∨ ∃ m ∈ d.metrics, m.name = key := by
  cases declaration with
  | interface i =>
      have hi : i ∈ (unitOf c d).interfaces := List.mem_filterMap.mpr ⟨_, hmem, rfl⟩
      exact .inl ⟨i, hi, List.mem_map.mp hkey⟩
  | shapeMap entries =>
      obtain rfl := shapeMap_mem_unitOf c d hmem
      exact .inr (by simpa [Declaration.keys, metricsOf, metricOf] using hkey)
  | definitionsTable table =>
      obtain rfl := definitionsTable_mem_unitOf c d hmem
      refine .inr ?_
      simpa [Declaration.keys, RuntimeTable.ofMetrics, metricsOf, metricOf] using hkey
  | accessorBase client =>
      obtain rfl := accessorBase_mem_unitOf c d hmem
      exact .inr (by simpa [Declaration.keys, map_metric_accessors] using hkey)
  | union _ | definitionShape | nameUnion | metadataOverride _ _ | span _ | recorder _ =>
      exact absurd hkey List.not_mem_nil

end Synthesis

namespace Metric.Lawful

variable {m : Metric}

/-- The members that a client class has beside its accessors have no underscore in their names. -/
theorem not_member (h : m.Lawful) : m.name ∉ ["getMetric", "constructor"] := by
  have hmembers : ∀ member ∈ ["getMetric", "constructor"], '_' ∉ member.toList := by decide
  exact fun hmem => hmembers _ hmem h.name.underscore_mem

/-- A metric without a unit is recorded with the first of the units. -/
theorem recorded_unit (h : m.Lawful) :
    m.unit.getD RuntimeRecord.defaultUnit ∈ Definitions.units := by
  cases hunit : m.unit with
  | none => decide
  | some unit => exact h.unit unit hunit

end Metric.Lawful

namespace Acceptable

variable {d : Definitions} {c : Config}

/-- What a source carries is declared, under the name of a type. -/
theorem isTypeName_of_carried (h : Acceptable d c) (hlawful : d.Lawful) {name : String}
    (hname : name ∈ d.carriedNames c) : Definitions.IsTypeName name := by
  obtain ⟨t, ht, -⟩ := h.declared name hname
  obtain rfl : t.name = name := MetadataType.name_of_first? ht
  exact (hlawful.types t (List.mem_of_find?_eq_some ht)).name

theorem isIdentifier_metric (h : Acceptable d c) (hlawful : d.Lawful) {m : Metric}
    (hm : m ∈ d.metrics) : isIdentifier m.name = true :=
  (hlawful.metrics m hm).name.isIdentifier (h.metrics_named m hm)

theorem isIdentifier_field (h : Acceptable d c) (hlawful : d.Lawful) {i : Interface}
    (hi : i ∈ (Synthesis.unitOf c d).interfaces) {f : Field} (hf : f ∈ i.fields) :
    isIdentifier f.name = true := by
  have hclient : ∀ client ∈ ClientField.all, isIdentifier client.name = true := by decide
  rcases Synthesis.field_cases c d hi hf with ⟨client, hmem, rfl⟩ | ⟨hcarried, -⟩
  · exact hclient client hmem
  · exact (h.isTypeName_of_carried hlawful hcarried).isIdentifier

theorem isIdentifier_typeName (h : Acceptable d c) (hlawful : d.Lawful) {name : String}
    (hname : name ∈ d.typeNames c) : isIdentifier name = true := by
  have hfixed : ∀ name ∈ ["MetricDefinition", "MetricShapes", "MetricName", "Metadata", "Span",
      "Metric"], isIdentifier name = true := by decide
  revert name
  simp only [Definitions.typeNames, List.forall_mem_append, List.forall_mem_map,
    List.forall_mem_cons]
  refine ⟨⟨⟨⟨h.settings.baseTypeName, h.settings.clientClassName, List.forall_mem_nil _⟩, ?_⟩,
    h.metrics_named⟩, fun name hname => ?_⟩
  · simpa only [List.forall_mem_cons] using hfixed
  · have hcarried := ((Synthesis.mem_enumeratedNames c d).mp hname).1
    exact (h.isTypeName_of_carried hlawful hcarried).isIdentifier_pascalCase

theorem isIdentifier_declaration (h : Acceptable d c) (hlawful : d.Lawful)
    {declaration : Declaration} (hmem : declaration ∈ (Synthesis.unitOf c d).declarations) :
    isIdentifier declaration.name = true := by
  have hname := (Synthesis.map_name_declarations_perm c d).mem_iff.mp (List.mem_map_of_mem hmem)
  rcases List.mem_cons.mp hname with heq | htype
  · rw [heq]
    decide
  · exact h.isIdentifier_typeName hlawful htype

theorem union_literals (hlawful : d.Lawful) {v : LiteralUnion}
    (hv : v ∈ (Synthesis.unitOf c d).unions) : v.literals ≠ [] ∧ v.literals.Nodup := by
  rw [Synthesis.unions_unitOf, Synthesis.unionsOf_eq] at hv
  obtain ⟨name, hname, rfl⟩ := List.mem_map.mp hv
  have henum := ((Synthesis.mem_enumeratedNames c d).mp hname).2
  obtain ⟨t, values, hfirst, hvalues⟩ := MetadataType.exists_of_isEnumerated henum
  have hliterals : (Registration.ofName d.types name).union.literals = values := by
    simp [Registration.ofName, hfirst, hvalues]
  rw [hliterals]
  exact (hlawful.types t (List.mem_of_find?_eq_some hfirst)).allowedValues values hvalues

theorem legal (h : Acceptable d c) (hlawful : d.Lawful) : (Synthesis.unitOf c d).Legal where
  declarations _ hmem := h.isIdentifier_declaration hlawful hmem
  metrics m hm := by
    obtain ⟨metric, hmetric, rfl⟩ := List.mem_map.mp hm
    exact h.isIdentifier_metric hlawful hmetric
  fields m hm f hf := by
    obtain ⟨metric, hmetric, rfl⟩ := List.mem_map.mp hm
    obtain ⟨r, hr, rfl⟩ := List.mem_map.mp hf
    have hcarried := mem_carriedNames (c := c) hmetric ((keepFirstFrom_sublist _ _ _).subset hr)
    exact (h.isTypeName_of_carried hlawful hcarried).isIdentifier
  keys declaration hmem key hkey := by
    have hidentifier : isIdentifier key = true := by
      rcases Synthesis.mem_keys_unitOf c d hmem hkey with ⟨i, hi, f, hf, rfl⟩ | ⟨m, hm, rfl⟩
      · exact h.isIdentifier_field hlawful hi hf
      · exact h.isIdentifier_metric hlawful hm
    exact ⟨hidentifier, if_pos hidentifier⟩
  unions _ hv := union_literals hlawful hv
  accessors client hmem := by
    obtain rfl := Synthesis.accessorBase_mem_unitOf c d hmem
    have hnames := Synthesis.map_metric_accessors c d
    refine ⟨hnames ▸ h.metric_names_nodup, fun a ha => ?_⟩
    have hmem : a.metric ∈ d.metrics.map Metric.name := hnames ▸ List.mem_map_of_mem ha
    obtain ⟨m, hm, hname⟩ := List.mem_map.mp hmem
    rw [← hname]
    exact (hlawful.metrics m hm).not_member
  units table hmem entry hentry := by
    obtain rfl := Synthesis.definitionsTable_mem_unitOf c d hmem
    obtain ⟨resolved, hresolved, rfl⟩ := List.mem_map.mp hentry
    obtain ⟨m, hm, rfl⟩ := List.mem_map.mp hresolved
    exact (hlawful.metrics m hm).recorded_unit

end Acceptable

/-- **Accepted documents give legal names.** In every source that a run makes from accepted
documents all names are identifiers, so none is quoted and none hides a member of the client class;
a union has values, no two alike, and a record has one of the five units. -/
theorem legal_of_accepted {documents : List Definitions} {c : Config} {u : SourceUnit}
    (haccepted : ∀ d ∈ documents, ∃ value source, Definitions.ofJson value source = .ok d)
    (h : generateDocuments documents c = .ok u) : u.Legal := by
  obtain ⟨hacceptable, rfl⟩ := (generate_eq_ok_iff_acceptable _ c u).mp h
  refine hacceptable.legal (Definitions.lawful_merge_withBundled c fun d hd => ?_)
  obtain ⟨value, source, hvalue⟩ := haccepted d hd
  exact Definitions.lawful_of_ofJson hvalue

theorem legal_of_accepted_sample :
    (Synthesis.unitOf .sample (.merge [.sample])).Legal := by
  have haccepted : ∀ d ∈ [Definitions.sample],
      ∃ value source, Definitions.ofJson value source = .ok d := by
    rw [List.forall_mem_singleton]
    exact ⟨Definitions.sample.toJson, "sample.json", rfl⟩
  exact legal_of_accepted haccepted
    (show generateDocuments [.sample] .sample = .ok _ from rfl)

end TelemetryTypes
