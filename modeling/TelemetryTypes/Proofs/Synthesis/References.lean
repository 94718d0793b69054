import TelemetryTypes.Proofs.Synthesis.Flattening

/-!
# References within a source

Declarations refer to each other by name: properties to unions, interfaces and the fixed types to the
base type, the map of types and the client class to the types of metrics, overrides to properties of
the base type. `Closed` says that every such name has exactly one declaration of the right sort, and
that no union is declared for nothing. Unions are registered as names are resolved and properties are
left out only afterwards, so the second half rests on what is left out: a metric leaves a name to the
base type only if the base type has it, and then the base type refers to its union.
-/

namespace TelemetryTypes

open MetadataType (firstD)

def SourceUnit.interfaces (u : SourceUnit) : List Interface :=
  u.declarations.filterMap fun
    | .interface i => some i
    | _ => none

namespace Declaration

/-- The names that a declaration gives for the base type. -/
def bases : Declaration → List String
  | interface i => i.extends?.toList
  | metadataOverride base _ | span base | recorder base => [base]
  | _ => []

/-- The names that a declaration gives for types of metrics. -/
def shapes : Declaration → List String
  | shapeMap entries => entries.map (·.2)
  | accessorBase c => c.accessors.map (·.shape)
  | _ => []

/-- The names that a declaration gives for properties of the base type. -/
def picked : Declaration → List String
  | metadataOverride _ overridable => overridable
  | _ => []

end Declaration

/-- Every name that a unit refers to is declared once, and every union is referred to. The first
interface is the base type, the others are those of the metrics. -/
structure Closed (d : Definitions) (u : SourceUnit) (base : Interface) (own : List Interface) :
    Prop where
  interfaces_eq : u.interfaces = base :: own
  /-- A property that names a type names one union, made from the first type of the property's
  name. -/
  named : ∀ i ∈ u.interfaces, ∀ f ∈ i.fields, ∀ name, f.type = .named name →
    ∃ t values, d.metadataType? f.name = some t ∧ t.allowedValues = some values
      ∧ u.unions.filter (·.name == name) = [⟨name, values⟩]
  used : ∀ v ∈ u.unions, ∃ i ∈ u.interfaces, ∃ f ∈ i.fields, f.type = .named v.name
  based : ∀ name ∈ u.declarations.flatMap Declaration.bases, name = base.name
  shaped : ∀ name ∈ u.declarations.flatMap Declaration.shapes,
    ∃ i ∈ own, u.interfaces.filter (·.name == name) = [i]
  picked : ∀ name ∈ u.declarations.flatMap Declaration.picked,
    ∃ f ∈ base.fields, f.name = name ∧ f.optional = true

namespace Synthesis

variable (c : Config) (d : Definitions)

theorem interfaces_unitOf : (unitOf c d).interfaces
    = baseTypeOf d.types c :: (metricsOf c d).map (·.interface c.baseTypeName) := by
  simp [SourceUnit.interfaces, unitOf, assemble, List.filterMap_append, List.filterMap_map]

theorem unions_unitOf : (unitOf c d).unions = unionsOf c d := by
  simp [SourceUnit.unions, unitOf, assemble, List.filterMap_append, List.filterMap_map]

theorem mem_bases_unitOf {name : String}
    (hname : name ∈ (unitOf c d).declarations.flatMap Declaration.bases) :
    name = c.baseTypeName := by
  simp only [unitOf, assemble, List.flatMap_append, List.mem_append] at hname
  rcases hname with ((hbase | hmetrics) | hunions) | hfixed
  · simp [Declaration.bases, baseTypeOf] at hbase
  · have hmetric : (∃ m, m ∈ metricsOf c d) ∧ name = c.baseTypeName := by
      simpa [Declaration.bases, ResolvedMetric.interface] using hmetrics
    exact hmetric.2
  · simp [Declaration.bases] at hunions
  · simpa [Declaration.bases] using hfixed

theorem mem_shapes_unitOf {name : String}
    (hname : name ∈ (unitOf c d).declarations.flatMap Declaration.shapes) :
    ∃ m ∈ d.metrics, m.typeName = name := by
  simpa [unitOf, assemble, Declaration.shapes, metricsOf, AccessorClass.ofMetrics,
    Accessor.ofMetric, metricOf] using hname

theorem mem_picked_unitOf {name : String}
    (hname : name ∈ (unitOf c d).declarations.flatMap Declaration.picked) :
    name ∈ c.overridableMetadata := by
  simpa [unitOf, assemble, Declaration.picked] using hname

/-! ### Properties and unions -/

/-- A property of a source is the client's own or has a carried name and the type of that. -/
theorem field_cases {i : Interface} (hi : i ∈ (unitOf c d).interfaces) {f : Field}
    (hf : f ∈ i.fields) :
    (∃ client ∈ ClientField.all, f = client.toField)
      ∨ f.name ∈ d.carriedNames c ∧ f.type = (firstD d.types f.name).target := by
  rw [interfaces_unitOf] at hi
  rcases List.mem_cons.mp hi with rfl | hmetric
  · rcases List.mem_append.mp hf with hcommon | hclient
    · obtain ⟨common, hmem, rfl⟩ := List.mem_map.mp hcommon
      exact .inr ⟨List.mem_append_left _ hmem, rfl⟩
    · obtain ⟨client, hmem, rfl⟩ := List.mem_map.mp hclient
      exact .inl ⟨client, hmem, rfl⟩
  · obtain ⟨resolved, hresolved, rfl⟩ := List.mem_map.mp hmetric
    obtain ⟨m, hm, rfl⟩ := List.mem_map.mp hresolved
    obtain ⟨field, hfield, rfl⟩ := List.mem_map.mp hf
    obtain ⟨r, hr, rfl⟩ := List.mem_map.mp (List.mem_of_mem_filter hfield)
    exact .inr ⟨Acceptable.mem_carriedNames hm ((keepFirstFrom_sublist _ _ _).subset hr), rfl⟩

/-- A property that names a type has an enumerated name and names the union of that. -/
theorem enumerated_of_named {i : Interface} (hi : i ∈ (unitOf c d).interfaces) {f : Field}
    (hf : f ∈ i.fields) {name : String} (htype : f.type = .named name) :
    f.name ∈ d.enumeratedNames c ∧ name = Text.pascalCase f.name := by
  rcases field_cases c d hi hf with ⟨client, _, rfl⟩ | ⟨hcarried, htarget⟩
  · cases hkind : client.kind <;> simp [ClientField.toField, hkind, TypeExpr.ofKind] at htype
  · rw [htarget, MetadataType.target_firstD_eq_named_iff] at htype
    exact ⟨(mem_enumeratedNames c d).mpr ⟨hcarried, htype.1⟩, htype.2⟩

/-- A carried name is a property somewhere, of the type that its first type gives it. -/
theorem exists_field_of_carried {name : String} (hname : name ∈ d.carriedNames c) :
    ∃ i ∈ (unitOf c d).interfaces, ∃ f ∈ i.fields, f.type = (firstD d.types name).target := by
  rw [interfaces_unitOf]
  by_cases hcommon : name ∈ c.commonMetadata
  · exact ⟨_, List.mem_cons_self, commonFieldOf d.types name,
      List.mem_append_left _ (List.mem_map_of_mem hcommon), rfl⟩
  · have hmetrics := (List.mem_append.mp hname).resolve_left hcommon
    obtain ⟨m, hm, hreferred⟩ := List.mem_flatMap.mp hmetrics
    rw [← mem_map_keepFirst Reference.typeName] at hreferred
    obtain ⟨r, hr, rfl⟩ := List.mem_map.mp hreferred
    have hdeclared : (fieldOf d.types c r).isDeclared = true := by
      simp [ResolvedField.isDeclared, fieldOf, Config.isCommon, hcommon]
    exact ⟨_, List.mem_cons_of_mem _ (List.mem_map_of_mem (List.mem_map_of_mem hm)),
      (fieldOf d.types c r).toField, List.mem_map_of_mem
        (List.mem_filter.mpr ⟨List.mem_map_of_mem hr, hdeclared⟩), rfl⟩

theorem exists_field_of_union {v : LiteralUnion} (hv : v ∈ (unitOf c d).unions) :
    ∃ i ∈ (unitOf c d).interfaces, ∃ f ∈ i.fields, f.type = .named v.name := by
  rw [unions_unitOf, unionsOf_eq] at hv
  obtain ⟨name, hname, rfl⟩ := List.mem_map.mp hv
  obtain ⟨hcarried, henum⟩ := (mem_enumeratedNames c d).mp hname
  obtain ⟨i, hi, f, hf, htype⟩ := exists_field_of_carried c d hcarried
  rw [MetadataType.target_firstD_eq_named_iff.mpr ⟨henum, rfl⟩] at htype
  exact ⟨i, hi, f, hf, htype⟩

end Synthesis

namespace Acceptable

variable {d : Definitions} {c : Config}

theorem unions_nodup (h : Acceptable d c) :
    ((Synthesis.unionsOf c d).map LiteralUnion.name).Nodup := by
  rw [Synthesis.map_name_unionsOf]
  exact h.typeNames_nodup.sublist (List.sublist_append_right _ _)

theorem interfaces_nodup (h : Acceptable d c) :
    ((Synthesis.unitOf c d).interfaces.map Interface.name).Nodup := by
  rw [Synthesis.interfaces_unitOf]
  simpa [Synthesis.metricsOf, Synthesis.baseTypeOf, ResolvedMetric.interface, Synthesis.metricOf,
    Function.comp_def] using h.base_and_metrics_nodup

/-- The union of an enumerated name is the only one of its name, and has the values of the first
type of that name. -/
theorem union_unique (h : Acceptable d c) {name : String} (hname : name ∈ d.enumeratedNames c) :
    ∃ t values, d.metadataType? name = some t ∧ t.allowedValues = some values
      ∧ (Synthesis.unitOf c d).unions.filter (·.name == Text.pascalCase name)
        = [⟨Text.pascalCase name, values⟩] := by
  have henum := ((Synthesis.mem_enumeratedNames c d).mp hname).2
  obtain ⟨t, values, hfirst, hvalues⟩ := MetadataType.exists_of_isEnumerated henum
  have hunion : (Registration.ofName d.types name).union = ⟨Text.pascalCase name, values⟩ := by
    simp [Registration.ofName, hfirst, hvalues]
  have hmem : ⟨Text.pascalCase name, values⟩ ∈ Synthesis.unionsOf c d := by
    rw [Synthesis.unionsOf_eq, ← hunion]
    exact List.mem_map_of_mem hname
  refine ⟨t, values, hfirst, hvalues, ?_⟩
  rw [Synthesis.unions_unitOf]
  exact filter_of_mem_of_nodup LiteralUnion.name h.unions_nodup hmem

theorem shaped (h : Acceptable d c) {m : Metric} (hm : m ∈ d.metrics) :
    (Synthesis.unitOf c d).interfaces.filter (·.name == m.typeName)
      = [(Synthesis.metricOf d.types c m).interface c.baseTypeName] := by
  have hmem : (Synthesis.metricOf d.types c m).interface c.baseTypeName
      ∈ (Synthesis.unitOf c d).interfaces := by
    rw [Synthesis.interfaces_unitOf]
    exact List.mem_cons_of_mem _ (List.mem_map_of_mem (List.mem_map_of_mem hm))
  exact filter_of_mem_of_nodup Interface.name h.interfaces_nodup hmem

theorem closed (h : Acceptable d c) :
    Closed d (Synthesis.unitOf c d) (Synthesis.baseTypeOf d.types c)
      ((Synthesis.metricsOf c d).map (·.interface c.baseTypeName)) where
  interfaces_eq := Synthesis.interfaces_unitOf c d
  named i hi f hf name htype := by
    obtain ⟨hname, rfl⟩ := Synthesis.enumerated_of_named c d hi hf htype
    exact h.union_unique hname
  used v hv := Synthesis.exists_field_of_union c d hv
  based name hname := Synthesis.mem_bases_unitOf c d hname
  shaped name hname := by
    obtain ⟨m, hm, rfl⟩ := Synthesis.mem_shapes_unitOf c d hname
    exact ⟨_, List.mem_map_of_mem (List.mem_map_of_mem hm), h.shaped hm⟩
  picked name hname := by
    have hcommon := h.settings.overridable_subset (Synthesis.mem_picked_unitOf c d hname)
    exact ⟨Synthesis.commonFieldOf d.types name,
      List.mem_append_left _ (List.mem_map_of_mem hcommon), rfl, rfl⟩

end Acceptable

/-- **Sources are closed under reference.** In every source each name that a declaration refers to
has exactly one declaration, of the sort that is meant, and each union is the type of a property. -/
theorem references_closed {d : Definitions} {c : Config} {u : SourceUnit}
    (h : generate d c = .ok u) :
    ∃ base own, base.name = c.baseTypeName ∧ own.map Interface.name = d.metrics.map Metric.typeName
      ∧ Closed d u base own := by
  obtain ⟨hacceptable, rfl⟩ := (generate_eq_ok_iff_acceptable d c u).mp h
  refine ⟨Synthesis.baseTypeOf d.types c,
    (Synthesis.metricsOf c d).map (·.interface c.baseTypeName), rfl, ?_, hacceptable.closed⟩
  rw [Synthesis.metricsOf, List.map_map, List.map_map]
  rfl

theorem references_closed_sample :
    ∃ base own, base.name = "MetricBase" ∧ own.map Interface.name = ["LambdaInvoke"]
      ∧ Closed .sample (Synthesis.unitOf .sample .sample) base own :=
  references_closed generate_sample

end TelemetryTypes
