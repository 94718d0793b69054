import TelemetryTypes.Proofs.Json.Entries
import TelemetryTypes.Proofs.Synthesis.Lookup

/-!
# What is made from each metric

The resolved metrics, their interfaces, the map of shapes, the runtime table and the accessors are
five lists that are made from the metrics one by one. `Aligned` says that they stay abreast: what
stands at a position belongs to the metric that stands there. An object has one value for a key, so
the table keeps all its records as an object only because the names of metrics are distinct; and
that is decided by the claims on type names, not by a merge.
-/

namespace TelemetryTypes

def SourceUnit.shapeMap? (u : SourceUnit) : Option (List (String × String)) :=
  u.declarations.findSome? fun
    | .shapeMap entries => some entries
    | _ => none

/-- The name of a metric and that of its type. -/
def Metric.names (m : Metric) : String × String := (m.name, Text.pascalCase m.name)

/-- The parts of a unit follow the metrics, position by position. The first declaration is the base
type and the interfaces behind it are those of the metrics. -/
structure SourceUnit.Aligned (u : SourceUnit) (metrics : List Metric) : Prop where
  names_nodup : (metrics.map Metric.name).Nodup
  resolved : u.metrics.map (fun r => (r.name, r.typeName)) = metrics.map Metric.names
  interfaces : ∃ base own rest, u.declarations = .interface base :: own.map .interface ++ rest
    ∧ (∀ declaration ∈ rest, ∀ i, declaration ≠ .interface i)
    ∧ own.map Interface.name = metrics.map (fun m => Text.pascalCase m.name)
    ∧ own = u.metrics.map (·.interface base.name)
  shapes : u.shapeMap? = some (metrics.map Metric.names)
  /-- The object of the table has one entry for every metric, the record of that metric. -/
  records : ∃ t entries, u.runtimeTable? = some t
    ∧ t.entries.map Prod.fst = metrics.map Metric.name
    ∧ t.entries.map Prod.snd = u.metrics.map .ofMetric
    ∧ t.toJson = .object entries ∧ (entries.map Prod.fst).Perm (metrics.map Metric.name)
    ∧ ∀ entry ∈ t.entries, t.toJson.get? entry.1 = some entry.2.toJson
  accessors : ∃ client, u.accessors? = some client
    ∧ client.accessors.map (fun a => (a.metric, a.shape)) = metrics.map Metric.names

/-! ### The table as an object -/

namespace RuntimeTable

variable {t : RuntimeTable}

theorem map_fst_toJson (t : RuntimeTable) :
    (t.entries.map fun e => (e.1, e.2.toJson)).map Prod.fst = t.entries.map Prod.fst := by
  rw [List.map_map]
  rfl

/-- Distinct names keep every record of a table in its object. -/
theorem exists_toJson_eq (hnodup : (t.entries.map Prod.fst).Nodup) :
    ∃ kept, t.toJson = .object kept ∧ kept.Perm (t.entries.map fun e => (e.1, e.2.toJson)) := by
  rw [← map_fst_toJson] at hnodup
  exact Json.exists_ofEntries_eq hnodup

theorem get?_toJson (hnodup : (t.entries.map Prod.fst).Nodup) {entry : String × RuntimeRecord}
    (hentry : entry ∈ t.entries) : t.toJson.get? entry.1 = some entry.2.toJson := by
  rw [← map_fst_toJson] at hnodup
  rw [toJson, Json.get?_ofEntries hnodup]
  exact Json.lookup_of_mem hnodup (List.mem_map_of_mem hentry)

end RuntimeTable

/-! ### The parts of a unit -/

namespace Synthesis

variable (c : Config) (d : Definitions)

theorem shapeMap?_unitOf :
    (unitOf c d).shapeMap? = some ((metricsOf c d).map fun m => (m.name, m.typeName)) := by
  simp [SourceUnit.shapeMap?, unitOf, assemble, List.findSome?_append, List.findSome?_map,
    Function.comp_def, findSome?_none]

theorem accessors?_unitOf :
    (unitOf c d).accessors? = some (.ofMetrics c.clientClassName (metricsOf c d)) := by
  simp [SourceUnit.accessors?, unitOf, assemble, List.findSome?_append, List.findSome?_map,
    Function.comp_def, findSome?_none]

theorem map_names_metricsOf :
    (metricsOf c d).map (fun r => (r.name, r.typeName)) = d.metrics.map Metric.names := by
  rw [metricsOf, List.map_map]
  rfl

theorem map_fst_entries :
    (RuntimeTable.ofMetrics (metricsOf c d)).entries.map Prod.fst = d.metrics.map Metric.name := by
  rw [RuntimeTable.ofMetrics, metricsOf, List.map_map, List.map_map]
  rfl

/-- The interfaces of a unit are its first declarations. -/
theorem exists_declarations_eq :
    ∃ rest, (unitOf c d).declarations
        = .interface (baseTypeOf d.types c)
          :: ((metricsOf c d).map (·.interface c.baseTypeName)).map .interface ++ rest
      ∧ ∀ declaration ∈ rest, ∀ i, declaration ≠ .interface i := by
  refine ⟨(unionsOf c d).map .union ++ [.definitionShape,
    .shapeMap ((metricsOf c d).map fun m => (m.name, m.typeName)), .nameUnion,
    .definitionsTable (.ofMetrics (metricsOf c d)),
    .metadataOverride c.baseTypeName c.overridableMetadata, .span c.baseTypeName,
    .recorder c.baseTypeName, .accessorBase (.ofMetrics c.clientClassName (metricsOf c d))], ?_, ?_⟩
  · simp only [unitOf, assemble, List.map_map, List.append_assoc, List.cons_append]
    rfl
  · intro declaration hrest i heq
    rcases List.mem_append.mp hrest with hunion | hfixed
    · obtain ⟨v, _, rfl⟩ := List.mem_map.mp hunion
      cases heq
    · simp [heq] at hfixed

end Synthesis

namespace Acceptable

variable {d : Definitions} {c : Config}

theorem record_names_nodup (h : Acceptable d c) :
    ((RuntimeTable.ofMetrics (Synthesis.metricsOf c d)).entries.map Prod.fst).Nodup := by
  rw [Synthesis.map_fst_entries]
  exact h.metric_names_nodup

theorem aligned (h : Acceptable d c) : (Synthesis.unitOf c d).Aligned d.metrics where
  names_nodup := h.metric_names_nodup
  resolved := Synthesis.map_names_metricsOf c d
  interfaces := by
    obtain ⟨rest, hdeclarations, hrest⟩ := Synthesis.exists_declarations_eq c d
    refine ⟨_, _, rest, hdeclarations, hrest, ?_, rfl⟩
    rw [Synthesis.metricsOf, List.map_map, List.map_map]
    rfl
  shapes := by rw [Synthesis.shapeMap?_unitOf, Synthesis.map_names_metricsOf]
  records := by
    have hnodup := h.record_names_nodup
    have hnames := Synthesis.map_fst_entries c d
    obtain ⟨entries, hentries, hperm⟩ := RuntimeTable.exists_toJson_eq hnodup
    have hkeys := hperm.map Prod.fst
    rw [RuntimeTable.map_fst_toJson, hnames] at hkeys
    refine ⟨_, entries, Synthesis.runtimeTable?_assemble c _ _ _, hnames, ?_, hentries, hkeys,
      fun entry hentry => RuntimeTable.get?_toJson hnodup hentry⟩
    rw [RuntimeTable.ofMetrics, List.map_map]
    rfl
  accessors := by
    refine ⟨_, Synthesis.accessors?_unitOf c d, ?_⟩
    rw [← Synthesis.map_names_metricsOf c d, AccessorClass.ofMetrics, List.map_map]
    rfl

end Acceptable

/-- **Nothing is lost between the metrics and what is made from them.** In every source the names
of the metrics are distinct, all parts follow the metrics position by position, and the object of
the runtime table has exactly the records of the table, under the names of their metrics. -/
theorem parts_aligned {d : Definitions} {c : Config} {u : SourceUnit}
    (h : generate d c = .ok u) : u.Aligned d.metrics := by
  obtain ⟨hacceptable, rfl⟩ := (generate_eq_ok_iff_acceptable d c u).mp h
  exact hacceptable.aligned

/-- Two metrics, the second of which comes first as a key. -/
def Definitions.sampleAligned : Definitions where
  types := Definitions.sample.types
  metrics := Definitions.sample.metrics
    ++ [.bare "file_save" "Saves a file" [.requiredTo "duration"]]

theorem parts_aligned_sample :
    (Synthesis.unitOf .sample .sampleAligned).Aligned Definitions.sampleAligned.metrics :=
  parts_aligned (c := .sample) rfl

end TelemetryTypes
