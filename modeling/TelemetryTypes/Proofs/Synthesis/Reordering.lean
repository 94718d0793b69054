import TelemetryTypes.Proofs.Synthesis.Alignment
import TelemetryTypes.Proofs.Synthesis.References

/-!
# Metrics in another order

A run resolves one metric after the other, and what one of them registers is there when the next is
resolved. Nothing of this shows in what comes out for a metric: it depends on the metric, the types
and the settings alone, and whether anything comes out is a condition on all metrics that knows no
order. So metrics in another order give the same parts in another order, and one and the same object
for the runtime table.
-/

namespace TelemetryTypes

open MetadataType (isEnumerated)

/-- The same types under other metrics. -/
def Definitions.withMetrics (d : Definitions) (metrics : List Metric) : Definitions :=
  ⟨d.types, metrics⟩

/-- What a unit has under the names of a metric. -/
structure SourceUnit.Has (u : SourceUnit) (m : Metric) (resolved : ResolvedMetric) (i : Interface)
    (record : RuntimeRecord) (accessor : Accessor) : Prop where
  resolved : u.metrics.find? (·.name == m.name) = some resolved
  interface : u.interface? m.typeName = some i
  record : ∃ t, u.runtimeTable? = some t ∧ t.get? m.name = some record
  accessor : ∃ client, u.accessors? = some client ∧ client.get? m.name = some accessor

/-- The second unit has the base type of the first one, the same for every metric, and all of it in
some order. -/
structure SourceUnit.Reorders (u v : SourceUnit) (metrics : List Metric) : Prop where
  interfaces : ∃ base own own', u.interfaces = base :: own ∧ v.interfaces = base :: own'
    ∧ own.Perm own'
  resolved : u.metrics.Perm v.metrics
  unions : u.unions.Perm v.unions
  same : ∀ m ∈ metrics, ∃ resolved i record accessor,
    u.Has m resolved i record accessor ∧ v.Has m resolved i record accessor
  json : ∃ t t', u.runtimeTable? = some t ∧ v.runtimeTable? = some t' ∧ t.toJson = t'.toJson

/-! ### What the order decides -/

namespace Definitions

variable {d : Definitions} {metrics : List Metric} (c : Config)

theorem carriedNames_perm (hperm : d.metrics.Perm metrics) :
    (d.carriedNames c).Perm ((d.withMetrics metrics).carriedNames c) :=
  (hperm.flatMap_right _).append_left _

theorem enumeratedNames_nodup (d : Definitions) : (d.enumeratedNames c).Nodup := by
  rw [enumeratedNames, ← keepFirst_id]
  simpa using nodup_map_keepFirst id ((d.carriedNames c).filter (isEnumerated d.types))

/-- The order decides where a union stands, and not whether there is one. -/
theorem enumeratedNames_perm (hperm : d.metrics.Perm metrics) :
    (d.enumeratedNames c).Perm ((d.withMetrics metrics).enumeratedNames c) := by
  rw [List.perm_ext_iff_of_nodup (enumeratedNames_nodup c d) (enumeratedNames_nodup c _)]
  intro name
  rw [Synthesis.mem_enumeratedNames, Synthesis.mem_enumeratedNames,
    (carriedNames_perm c hperm).mem_iff]
  rfl

theorem typeNames_perm (hperm : d.metrics.Perm metrics) :
    (d.typeNames c).Perm ((d.withMetrics metrics).typeNames c) :=
  ((hperm.map _).append_left _).append ((enumeratedNames_perm c hperm).map Text.pascalCase)

end Definitions

namespace Acceptable

variable {d : Definitions} {c : Config} {metrics : List Metric}

theorem generate_eq (h : Acceptable d c) : generate d c = .ok (Synthesis.unitOf c d) :=
  (generate_eq_ok_iff_acceptable d c _).mpr ⟨h, rfl⟩

theorem withMetrics (h : Acceptable d c) (hperm : d.metrics.Perm metrics) :
    Acceptable (d.withMetrics metrics) c where
  settings := h.settings
  declared name hname :=
    h.declared name ((Definitions.carriedNames_perm c hperm).mem_iff.mpr hname)
  unreserved m hm := h.unreserved m (hperm.mem_iff.mpr hm)
  unions_apart a ha b hb :=
    h.unions_apart a ((Definitions.carriedNames_perm c hperm).mem_iff.mpr ha)
      b ((Definitions.carriedNames_perm c hperm).mem_iff.mpr hb)
  metrics_named m hm := h.metrics_named m (hperm.mem_iff.mpr hm)
  typeNames_nodup := (Definitions.typeNames_perm c hperm).nodup h.typeNames_nodup

/-- What a source has for a metric is read off the metric, the types and the settings. -/
theorem has (h : Acceptable d c) {m : Metric} (hm : m ∈ d.metrics) :
    (Synthesis.unitOf c d).Has m (Synthesis.metricOf d.types c m)
      ((Synthesis.metricOf d.types c m).interface c.baseTypeName)
      (.ofMetric (Synthesis.metricOf d.types c m))
      (.ofMetric (Synthesis.metricOf d.types c m)) := by
  have hfind := find?_of_mem_of_nodup Metric.name h.metric_names_nodup hm
  refine ⟨?_, Synthesis.interface?_metric h hm,
    ⟨_, Synthesis.runtimeTable?_assemble c _ _ _, Synthesis.get?_metric h hm⟩,
    _, Synthesis.accessors?_unitOf c d, ?_⟩
  · change (Synthesis.metricsOf c d).find? (·.name == m.name) = _
    simp only [Synthesis.metricsOf, List.find?_map, Function.comp_def, Synthesis.metricOf, hfind,
      Option.map_some]
  · simp only [AccessorClass.get?, AccessorClass.ofMetrics, Synthesis.metricsOf, List.map_map,
      List.find?_map, Function.comp_def, Accessor.ofMetric, Synthesis.metricOf, hfind,
      Option.map_some]

theorem reorders (h : Acceptable d c) (hperm : d.metrics.Perm metrics) :
    (Synthesis.unitOf c d).Reorders (Synthesis.unitOf c (d.withMetrics metrics)) d.metrics := by
  have h' := h.withMetrics hperm
  have hresolved : (Synthesis.metricsOf c d).Perm (Synthesis.metricsOf c (d.withMetrics metrics)) :=
    hperm.map (Synthesis.metricOf d.types c)
  constructor
  · exact ⟨_, _, _, Synthesis.interfaces_unitOf c d, Synthesis.interfaces_unitOf c _,
      hresolved.map _⟩
  · exact hresolved
  · rw [Synthesis.unions_unitOf, Synthesis.unions_unitOf, Synthesis.unionsOf_eq,
      Synthesis.unionsOf_eq]
    exact (Definitions.enumeratedNames_perm c hperm).map _
  · intro m hm
    exact ⟨_, _, _, _, h.has hm, h'.has (hperm.mem_iff.mp hm)⟩
  · refine ⟨_, _, Synthesis.runtimeTable?_assemble c _ _ _,
      Synthesis.runtimeTable?_assemble c _ _ _,
      Json.ofEntries_eq_of_perm ((hresolved.map _).map _) ?_⟩
    rw [RuntimeTable.map_fst_toJson]
    exact h.record_names_nodup

end Acceptable

/-- **The order of metrics has no meaning.** Metrics in another order give a source exactly when
they give one as they stand, and then every metric resolves to the same and has the same interface,
record and accessor; the base type is the same, the table is the same object, and the unions are the
same in some order. -/
theorem metric_order_irrelevant {d : Definitions} {metrics : List Metric}
    (hperm : d.metrics.Perm metrics) (c : Config) :
    ((∃ u, generate d c = .ok u) ↔ ∃ v, generate (d.withMetrics metrics) c = .ok v)
      ∧ ∀ u v, generate d c = .ok u → generate (d.withMetrics metrics) c = .ok v →
        u.Reorders v d.metrics := by
  constructor
  · constructor
    · rintro ⟨u, hu⟩
      have h := ((generate_eq_ok_iff_acceptable d c u).mp hu).1
      exact ⟨_, (h.withMetrics hperm).generate_eq⟩
    · rintro ⟨v, hv⟩
      have h := ((generate_eq_ok_iff_acceptable _ c v).mp hv).1
      exact ⟨_, (h.withMetrics hperm.symm).generate_eq⟩
  · intro u v hu hv
    obtain ⟨hacceptable, rfl⟩ := (generate_eq_ok_iff_acceptable d c u).mp hu
    obtain ⟨_, rfl⟩ := (generate_eq_ok_iff_acceptable _ c v).mp hv
    exact hacceptable.reorders hperm

/-- Metrics of which each one is the first to refer to some enumerated type. -/
def Definitions.sampleOrdered : Definitions where
  types := Definitions.sample.types ++ [.enumerated "runtime" ["node", "jvm"],
    .enumerated "trigger" ["user"]]
  metrics := [.bare "lambda_invoke" "Invokes a function" [.requiredTo "runtime",
      .optionalTo "trigger"],
    .bare "file_save" "Saves a file" [.requiredTo "trigger", .requiredTo "result"],
    .bare "file_open" "Opens a file" [.optionalTo "runtime"]]

theorem metric_order_irrelevant_sample :
    (Synthesis.unitOf .sample .sampleOrdered).Reorders
      (Synthesis.unitOf .sample
        (Definitions.sampleOrdered.withMetrics Definitions.sampleOrdered.metrics.reverse))
      Definitions.sampleOrdered.metrics :=
  (metric_order_irrelevant (List.reverse_perm _).symm .sample).2 _ _ rfl rfl

end TelemetryTypes
