import TelemetryTypes.Proofs.Synthesis.Outcome

/-!
# What a run reads of the types

Types are read through one question, which is the first type of a name, and only for names that are
demanded. So two lists of types that answer it alike for these give the same faults, the same
registry and the same unit; what else they declare, and where, is never seen.
-/

namespace TelemetryTypes

open MetadataType (first? firstD isEnumerated enumeratedAmong)

/-- Two lists of types have the same first type of every name among some. -/
def AgreeOn (types types' : List MetadataType) (names : List String) : Prop :=
  ∀ name ∈ names, first? types name = first? types' name

namespace AgreeOn

variable {types types' : List MetadataType} {names : List String}

theorem mono {names' : List String} (hagree : AgreeOn types types' names') (hsub : names ⊆ names') :
    AgreeOn types types' names :=
  fun name hname => hagree name (hsub hname)

theorem concat {name : String} (hagree : AgreeOn types types' names)
    (hname : first? types name = first? types' name) : AgreeOn types types' (names ++ [name]) := by
  intro other hother
  rcases List.mem_append.mp hother with hother | hother
  · exact hagree other hother
  · rwa [List.mem_singleton.mp hother]

/-! ### Faults -/

theorem isEnumerated_eq (hagree : AgreeOn types types' names) {name : String}
    (hname : name ∈ names) : isEnumerated types name = isEnumerated types' name := by
  rw [isEnumerated, isEnumerated, hagree name hname]

theorem enumeratedAmong_eq (hagree : AgreeOn types types' names) :
    enumeratedAmong types names = enumeratedAmong types' names := by
  rw [enumeratedAmong, enumeratedAmong, List.filter_congr fun _ hname => hagree.isEnumerated_eq hname]

theorem clash?_eq (hagree : AgreeOn types types' names) (name : String) :
    clash? types names name = clash? types' names name := by
  rw [clash?, clash?, holder?, holder?, hagree.enumeratedAmong_eq]

theorem fault?_eq (hagree : AgreeOn types types' names) {q : Demand}
    (hname : first? types q.name = first? types' q.name) :
    q.fault? types names = q.fault? types' names := by
  simp only [Demand.fault?, unresolved?, hname, hagree.clash?_eq]

theorem settle_eq {demands : List Demand}
    (hagree : AgreeOn types types' (names ++ demands.map Demand.name)) :
    Demand.settle types names demands = Demand.settle types' names demands := by
  induction demands generalizing names with
  | nil => rfl
  | cons q rest ih =>
      have hnames : AgreeOn types types' names := hagree.mono (List.subset_append_left _ _)
      have hname : first? types q.name = first? types' q.name := hagree q.name (by simp)
      have hrest : AgreeOn types types' ((names ++ [q.name]) ++ rest.map Demand.name) := by
        rwa [List.append_assoc]
      simp only [Demand.settle, hnames.fault?_eq hname, ih hrest]

/-! ### Values -/

theorem firstD_eq (hagree : AgreeOn types types' names) {name : String} (hname : name ∈ names) :
    firstD types name = firstD types' name := by
  rw [firstD, firstD, hagree name hname]

theorem ofNames_eq (hagree : AgreeOn types types' names) :
    Registry.ofNames types names = Registry.ofNames types' names := by
  rw [Registry.ofNames, Registry.ofNames, ← hagree.enumeratedAmong_eq]
  congr 1
  apply List.map_congr_left
  intro name hname
  rw [Registration.ofName, Registration.ofName,
    hagree name (MetadataType.mem_enumeratedAmong.mp hname).1]

theorem baseTypeOf_eq {c : Config} (hagree : AgreeOn types types' c.commonMetadata) :
    Synthesis.baseTypeOf types c = Synthesis.baseTypeOf types' c := by
  have hfields : c.commonMetadata.map (Synthesis.commonFieldOf types)
      = c.commonMetadata.map (Synthesis.commonFieldOf types') := by
    apply List.map_congr_left
    intro name hname
    rw [Synthesis.commonFieldOf, Synthesis.commonFieldOf, hagree.firstD_eq hname]
  rw [Synthesis.baseTypeOf, Synthesis.baseTypeOf, hfields]

theorem metricOf_eq {m : Metric} (c : Config)
    (hagree : AgreeOn types types' ((Synthesis.metricDemands m).map Demand.name)) :
    Synthesis.metricOf types c m = Synthesis.metricOf types' c m := by
  have hfields : (Synthesis.effectiveReferences m).map (Synthesis.fieldOf types c)
      = (Synthesis.effectiveReferences m).map (Synthesis.fieldOf types' c) := by
    apply List.map_congr_left
    intro r hr
    have hname : r.typeName ∈ (Synthesis.metricDemands m).map Demand.name := by
      rw [Synthesis.metricDemands, List.map_map]
      exact List.mem_map_of_mem hr
    rw [Synthesis.fieldOf, Synthesis.fieldOf, hagree.firstD_eq hname]
  rw [Synthesis.metricOf, Synthesis.metricOf, hfields]

end AgreeOn

namespace Synthesis

variable {c : Config} {d d' : Definitions}

theorem demands_eq (hmetrics : d.metrics = d'.metrics) : demands c d = demands c d' := by
  rw [demands, demands, hmetrics]

theorem metricsOf_eq (hmetrics : d.metrics = d'.metrics)
    (hagree : AgreeOn d.types d'.types (resolvedNames c d)) : metricsOf c d = metricsOf c d' := by
  rw [metricsOf, metricsOf, ← hmetrics]
  apply List.map_congr_left
  intro m hm
  apply AgreeOn.metricOf_eq
  apply hagree.mono
  rw [resolvedNames, demands, List.map_append, List.map_flatMap]
  exact fun name hname => List.mem_append_right _ (List.mem_flatMap.mpr ⟨m, hm, hname⟩)

theorem unionsOf_eq_of_agree (hmetrics : d.metrics = d'.metrics)
    (hagree : AgreeOn d.types d'.types (resolvedNames c d)) : unionsOf c d = unionsOf c d' := by
  rw [unionsOf, unionsOf, hagree.ofNames_eq, resolvedNames, resolvedNames, demands_eq hmetrics]

theorem unitOf_eq (hmetrics : d.metrics = d'.metrics)
    (hagree : AgreeOn d.types d'.types (resolvedNames c d)) : unitOf c d = unitOf c d' := by
  have hcommon : AgreeOn d.types d'.types c.commonMetadata := by
    apply hagree.mono
    rw [resolvedNames, demands, List.map_append, baseDemands, List.map_map]
    simp [Function.comp_def]
  rw [unitOf, unitOf, hcommon.baseTypeOf_eq, metricsOf_eq hmetrics hagree,
    unionsOf_eq_of_agree hmetrics hagree]

theorem claimsOf_eq (hmetrics : d.metrics = d'.metrics)
    (hagree : AgreeOn d.types d'.types (resolvedNames c d)) : claimsOf c d = claimsOf c d' := by
  rw [claimsOf, claimsOf, metricsOf_eq hmetrics hagree, unionsOf_eq_of_agree hmetrics hagree]

end Synthesis

/-- Definitions with the same metrics and the same first types of the names that these demand give
the same outcome, be it a unit or an error. -/
theorem generate_eq_of_agree {c : Config} {d d' : Definitions} (hmetrics : d.metrics = d'.metrics)
    (hagree : AgreeOn d.types d'.types (Synthesis.resolvedNames c d)) :
    generate d c = generate d' c := by
  have hsettle : Demand.settle d.types [] (Synthesis.demands c d)
      = Demand.settle d'.types [] (Synthesis.demands c d') := by
    rw [← Synthesis.demands_eq hmetrics]
    exact AgreeOn.settle_eq hagree
  rw [generate_eq, generate_eq, hsettle, Synthesis.claimsOf_eq hmetrics hagree,
    Synthesis.unitOf_eq hmetrics hagree]

end TelemetryTypes
