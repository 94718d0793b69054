import TelemetryTypes.Proofs.Synthesis.Lookup

/-!
# What a record must carry

The interface of a metric and its runtime record are both read off the resolved metric, but not in
the same way: the interface leaves out what the base type already has as optional, the record keeps
what is required. `required_fields_eq_record` says that they agree for every metric of every source,
found by name, and that both say what the references of the metric say.
-/

namespace TelemetryTypes

/-- The names of a metric's references, the first to each name and of these the required ones. -/
def Metric.requiredNames (m : Metric) : List String :=
  ((m.metadata.eraseDupsBy fun r s => r.typeName == s.typeName).filter
    fun r => r.required != some false).map Reference.typeName

/-- The names of the properties that an interface requires. -/
def Interface.requiredNames (i : Interface) : List String :=
  (i.fields.filter fun f => !f.optional).map Field.name

namespace ResolvedMetric

/-- A required field is declared by the metric itself, whether the base type has it or not. -/
theorem isDeclared_of_required {f : ResolvedField} (hrequired : f.required = true) :
    f.isDeclared = true := by
  simp [ResolvedField.isDeclared, hrequired]

theorem requiredNames_interface (m : ResolvedMetric) (base : String) :
    (m.interface base).requiredNames = m.requiredFields := by
  have hfilter : (m.fields.filter (·.isDeclared)).filter (·.required)
      = m.fields.filter (·.required) := by
    rw [List.filter_filter]
    apply List.filter_congr
    intro f _
    cases hrequired : f.required with
    | true => simp [isDeclared_of_required hrequired]
    | false => rfl
  simp only [Interface.requiredNames, ResolvedMetric.interface, List.filter_map, List.map_map,
    Function.comp_def, ResolvedField.toField, Bool.not_not, hfilter, ResolvedMetric.requiredFields]

end ResolvedMetric

theorem Synthesis.requiredFields_metricOf (types : List MetadataType) (c : Config) (m : Metric) :
    (metricOf types c m).requiredFields = m.requiredNames := by
  simp only [ResolvedMetric.requiredFields, metricOf, effectiveReferences, Metric.requiredNames,
    keepFirst_eq_eraseDupsBy, List.filter_map, List.map_map, Function.comp_def, fieldOf,
    Reference.isRequired_eq]

/-- **Interface and record agree.** For every metric of a source, its type name finds an interface
that extends the base type and its name finds a record; the names that the interface requires, those
that the record requires and those of the metric's required references are the same list. -/
theorem required_fields_eq_record {d : Definitions} {c : Config} {u : SourceUnit}
    (h : generate d c = .ok u) {m : Metric} (hm : m ∈ d.metrics) :
    ∃ i t r, u.interface? m.typeName = some i ∧ i.extends? = some c.baseTypeName
      ∧ i.doc = some m.description
      ∧ u.runtimeTable? = some t ∧ t.get? m.name = some r
      ∧ i.requiredNames = r.requiredMetadata
      ∧ r = ⟨m.unit.getD "None", m.passive.getD false, m.trackPerformance.getD false,
          m.requiredNames⟩ := by
  obtain ⟨hacceptable, rfl⟩ := (generate_eq_ok_iff_acceptable d c u).mp h
  have hrequired := Synthesis.requiredFields_metricOf d.types c m
  refine ⟨(Synthesis.metricOf d.types c m).interface c.baseTypeName,
    .ofMetrics (Synthesis.metricsOf c d), .ofMetric (Synthesis.metricOf d.types c m),
    Synthesis.interface?_metric hacceptable hm, rfl, rfl,
    Synthesis.runtimeTable?_assemble c _ _ _, Synthesis.get?_metric hacceptable hm, ?_, ?_⟩
  · exact ResolvedMetric.requiredNames_interface _ _
  · rw [← hrequired]
    rfl

theorem required_fields_eq_record_sample :
    ∃ i t r, (Synthesis.unitOf .sample .sample).interface? "LambdaInvoke" = some i
      ∧ i.extends? = some "MetricBase" ∧ i.doc = some "Invokes a function"
      ∧ (Synthesis.unitOf .sample .sample).runtimeTable? = some t
      ∧ t.get? "lambda_invoke" = some r
      ∧ i.requiredNames = r.requiredMetadata ∧ r = ⟨"None", false, false, ["result"]⟩ :=
  required_fields_eq_record generate_sample (m := .bare "lambda_invoke" "Invokes a function"
    [.requiredTo "result", .optionalTo "duration", .requiredTo "duration"]) (by decide)

end TelemetryTypes
