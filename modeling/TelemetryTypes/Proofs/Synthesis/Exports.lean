import TelemetryTypes.Proofs.Synthesis.Acceptance
import TelemetryTypes.Proofs.Text.Casing

/-!
# Exported names

A source exports what claims a type name and one thing more, the runtime table, whose name is no
type's and is not claimed. So the claims keep all names apart but that one: it is exported twice
exactly when the settings give it to the base type or to the client class.
-/

namespace TelemetryTypes

/-- Whether a declaration exports a type. The runtime table is a constant. -/
def Declaration.exportsType : Declaration → Bool
  | definitionsTable _ => false
  | _ => true

namespace Synthesis

variable (c : Config) (d : Definitions)

/-- The types among what is exported have the names that are claimed. -/
theorem map_name_types_perm :
    (((unitOf c d).declarations.filter Declaration.exportsType).map Declaration.name).Perm
      (d.typeNames c) := by
  have hnames : ((unitOf c d).declarations.filter Declaration.exportsType).map Declaration.name
      = [c.baseTypeName] ++ d.metrics.map (fun m => Text.pascalCase m.name)
        ++ (d.enumeratedNames c).map Text.pascalCase
        ++ ["MetricDefinition", "MetricShapes", "MetricName", "Metadata", "Span", "Metric",
          c.clientClassName] := by
    have hmetrics : ((metricsOf c d).map fun m =>
        Declaration.interface (m.interface c.baseTypeName)).filter Declaration.exportsType
        = (metricsOf c d).map fun m => .interface (m.interface c.baseTypeName) := by
      simp [List.filter_eq_self, Declaration.exportsType]
    have hunions : ((unionsOf c d).map Declaration.union).filter Declaration.exportsType
        = (unionsOf c d).map .union := by
      simp [List.filter_eq_self, Declaration.exportsType]
    rw [← map_name_unionsOf]
    simp only [unitOf, assemble, List.filter_append, hmetrics, hunions]
    simp only [metricsOf, List.map_append, List.map_map]
    rfl
  rw [hnames, List.perm_iff_count]
  intro name
  simp only [Definitions.typeNames, List.count_append, List.count_cons, List.count_nil]
  omega

theorem declarations_perm :
    (unitOf c d).declarations.Perm (.definitionsTable (.ofMetrics (metricsOf c d))
      :: (unitOf c d).declarations.filter Declaration.exportsType) := by
  have hrest : (unitOf c d).declarations.filter (fun declaration => !declaration.exportsType)
      = [.definitionsTable (.ofMetrics (metricsOf c d))] := by
    simp [unitOf, assemble, List.filter_map, Declaration.exportsType, Function.comp_def]
  have hsplit := List.filter_append_perm Declaration.exportsType (unitOf c d).declarations
  rw [hrest] at hsplit
  exact hsplit.symm.trans (List.perm_append_singleton _ _)

/-- The exported names are those that are claimed, and that of the runtime table. -/
theorem map_name_declarations_perm :
    ((unitOf c d).declarations.map Declaration.name).Perm ("definitions" :: d.typeNames c) :=
  ((declarations_perm c d).map Declaration.name).trans ((map_name_types_perm c d).cons _)

theorem definitions_mem_typeNames_iff :
    "definitions" ∈ d.typeNames c
      ↔ c.baseTypeName = "definitions" ∨ c.clientClassName = "definitions" := by
  have hpascal (name : String) : Text.pascalCase name ≠ "definitions" :=
    Text.pascalCase_ne_of_isLower (c := 'd') (by decide) (by decide) name
  simp [Definitions.typeNames, hpascal, eq_comm]

end Synthesis

/-- **Names are exported once**, all but that of the runtime table; that one is, too, exactly when
the settings name neither the base type nor the client class like the table. -/
theorem exported_names_nodup_iff {d : Definitions} {c : Config} {u : SourceUnit}
    (h : generate d c = .ok u) :
    (∀ name, name ≠ "definitions" → (u.declarations.map Declaration.name).count name ≤ 1)
      ∧ ((u.declarations.map Declaration.name).Nodup
        ↔ c.baseTypeName ≠ "definitions" ∧ c.clientClassName ≠ "definitions") := by
  obtain ⟨hacceptable, rfl⟩ := (generate_eq_ok_iff_acceptable d c u).mp h
  have hperm := Synthesis.map_name_declarations_perm c d
  have hclaimed := hacceptable.typeNames_nodup
  constructor
  · intro name hname
    rw [hperm.count_eq, List.count_cons_of_ne hname.symm]
    exact List.nodup_iff_count_le_one.mp hclaimed name
  · rw [hperm.nodup_iff, List.nodup_cons, Synthesis.definitions_mem_typeNames_iff, not_or]
    exact and_iff_left hclaimed

theorem exported_names_nodup_iff_sample :
    (∀ name, name ≠ "definitions" →
        ((Synthesis.unitOf .sample .sample).declarations.map Declaration.name).count name ≤ 1)
      ∧ (((Synthesis.unitOf .sample .sample).declarations.map Declaration.name).Nodup
        ↔ "MetricBase" ≠ "definitions" ∧ "TelemetryBase" ≠ "definitions") :=
  exported_names_nodup_iff generate_sample

/-- A client class that is named like the runtime table is exported beside it. -/
theorem exported_names_not_nodup :
    ∃ u, generate .empty ⟨"MetricBase", "definitions", [], [], false⟩ = .ok u
      ∧ u.declarations.map Declaration.name = ["MetricBase", "MetricDefinition", "MetricShapes",
        "MetricName", "definitions", "Metadata", "Span", "Metric", "definitions"]
      ∧ ¬(u.declarations.map Declaration.name).Nodup :=
  ⟨_, rfl, rfl, by decide⟩

end TelemetryTypes
