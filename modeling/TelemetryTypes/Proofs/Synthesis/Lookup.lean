import TelemetryTypes.Proofs.Synthesis.Acceptance

/-!
# Looking up by name

A unit is asked for interfaces and records by name. That a name finds what was made for it rests on
the claims on type names: they keep the base type and the metrics apart, and metrics whose type
names differ have different names.
-/

namespace TelemetryTypes

/-- The interface that a declaration is, if it has the name. -/
def Declaration.interfaceNamed? (name : String) : Declaration → Option Interface
  | .interface i => if i.name == name then some i else none
  | _ => none

theorem SourceUnit.interface?_eq (u : SourceUnit) (name : String) :
    u.interface? name = u.declarations.findSome? (Declaration.interfaceNamed? name) := by
  unfold SourceUnit.interface?
  congr 1

theorem findSome?_interfaceNamed? {α : Type} (make : α → Interface) (items : List α)
    (name : String) :
    (items.map fun x => .interface (make x)).findSome? (Declaration.interfaceNamed? name)
      = (items.find? fun x => (make x).name == name).map make := by
  induction items with
  | nil => rfl
  | cons x rest ih =>
      cases hx : (make x).name == name <;> simp [Declaration.interfaceNamed?, hx, ih]

namespace Synthesis

theorem interface?_assemble (c : Config) (base : Interface) (metrics : List ResolvedMetric)
    (unions : List LiteralUnion) (name : String) :
    (assemble c base metrics unions).interface? name
      = if base.name = name then some base
        else (metrics.find? (·.typeName == name)).map (·.interface c.baseTypeName) := by
  have hunions : (unions.map .union).findSome? (Declaration.interfaceNamed? name) = none := by
    simp [Declaration.interfaceNamed?]
  simp only [SourceUnit.interface?_eq, assemble, List.findSome?_append, findSome?_interfaceNamed?,
    hunions, ResolvedMetric.interface]
  by_cases hbase : base.name = name <;>
    simp [Declaration.interfaceNamed?, List.findSome?, hbase]

theorem findSome?_none {α β : Type} (items : List α) :
    items.findSome? (fun _ => (none : Option β)) = none := by
  simp [List.findSome?_eq_none_iff]

theorem runtimeTable?_assemble (c : Config) (base : Interface) (metrics : List ResolvedMetric)
    (unions : List LiteralUnion) :
    (assemble c base metrics unions).runtimeTable? = some (.ofMetrics metrics) := by
  simp [SourceUnit.runtimeTable?, assemble, List.findSome?_append, List.findSome?_map,
    Function.comp_def, findSome?_none]

end Synthesis

namespace Acceptable

variable {d : Definitions} {c : Config}

/-- The base type and the metrics all have type names of their own. -/
theorem base_and_metrics_nodup (h : Acceptable d c) :
    (c.baseTypeName :: d.metrics.map Metric.typeName).Nodup := by
  have hsub : (c.baseTypeName :: d.metrics.map fun m => Text.pascalCase m.name).Sublist
      (d.typeNames c) := by
    unfold Definitions.typeNames
    refine List.Sublist.trans ?_ (List.sublist_append_left _ _)
    rw [List.append_assoc]
    exact ((List.sublist_append_right _ _).trans (List.sublist_append_right _ _)).cons_cons _
  exact h.typeNames_nodup.sublist hsub

theorem metric_names_nodup (h : Acceptable d c) : (d.metrics.map Metric.name).Nodup := by
  have hnodup := h.base_and_metrics_nodup.of_cons
  rw [show Metric.typeName = Text.pascalCase ∘ Metric.name from rfl, ← List.map_map] at hnodup
  exact hnodup.of_map _

end Acceptable

namespace Synthesis

variable {d : Definitions} {c : Config}

theorem interface?_baseType (d : Definitions) (c : Config) :
    (unitOf c d).interface? c.baseTypeName = some (baseTypeOf d.types c) := by
  rw [unitOf, interface?_assemble]
  exact if_pos rfl

/-- The type name of a metric finds the metric's own interface. -/
theorem interface?_metric (h : Acceptable d c) {m : Metric} (hm : m ∈ d.metrics) :
    (unitOf c d).interface? m.typeName
      = some ((metricOf d.types c m).interface c.baseTypeName) := by
  have hnodup := List.nodup_cons.mp h.base_and_metrics_nodup
  have hne : (baseTypeOf d.types c).name ≠ m.typeName := by
    intro heq
    exact hnodup.1 (List.mem_map.mpr ⟨m, hm, heq.symm⟩)
  have hfind := find?_of_mem_of_nodup Metric.typeName hnodup.2 hm
  rw [unitOf, interface?_assemble, if_neg hne, metricsOf, List.find?_map]
  simp only [Function.comp_def, metricOf, hfind, Option.map_some]

/-- The name of a metric finds the metric's own record. -/
theorem get?_metric (h : Acceptable d c) {m : Metric} (hm : m ∈ d.metrics) :
    (RuntimeTable.ofMetrics (metricsOf c d)).get? m.name
      = some (.ofMetric (metricOf d.types c m)) := by
  have hfind := find?_of_mem_of_nodup Metric.name h.metric_names_nodup hm
  simp only [RuntimeTable.get?, RuntimeTable.ofMetrics, metricsOf, List.map_map, List.find?_map,
    Function.comp_def, metricOf, hfind, Option.map_some]

end Synthesis

/-- A reference is required unless it says that it is not. -/
theorem Reference.isRequired_eq (r : Reference) : r.isRequired = (r.required != some false) := by
  rcases hrequired : r.required with _ | _ | _ <;> simp [Reference.isRequired, hrequired]

end TelemetryTypes
