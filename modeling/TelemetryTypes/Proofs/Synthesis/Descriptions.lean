import TelemetryTypes.Proofs.Lexical.Documentation

/-!
# Descriptions and code

Descriptions of types, metrics and references are carried into the documentation of a source and
nowhere else: without them the definitions resolve alike, claim the same names and give the same
declarations but for the documentation. As the documentation is nothing but comments, whatever is
said in it, definitions that differ in descriptions only give the same code.
-/

namespace TelemetryTypes

open Lexical
open MetadataType (first? firstD isEnumerated)

/-! ### Definitions without descriptions -/

def MetadataType.undescribed (t : MetadataType) : MetadataType := { t with description := none }

def Reference.undescribed (r : Reference) : Reference := { r with description := none }

def Metric.undescribed (m : Metric) : Metric :=
  { m with description := "", metadata := m.metadata.map Reference.undescribed }

/-- Definitions with every description erased. -/
def Definitions.undescribed (d : Definitions) : Definitions :=
  ⟨d.types.map MetadataType.undescribed, d.metrics.map Metric.undescribed⟩

/-- A resolved metric without what is said of it and of its fields. -/
def ResolvedMetric.undescribed (m : ResolvedMetric) : ResolvedMetric :=
  { m with description := "", fields := m.fields.map fun f => { f with doc := none } }

/-! ### What they resolve to -/

namespace MetadataType

theorem first?_undescribed (types : List MetadataType) (name : String) :
    first? (types.map undescribed) name = (first? types name).map undescribed := by
  rw [first?, List.find?_map]
  rfl

theorem isEnumerated_undescribed (types : List MetadataType) :
    isEnumerated (types.map undescribed) = isEnumerated types := by
  funext name
  rw [isEnumerated, isEnumerated, first?_undescribed, Option.bind_map]
  rfl

theorem firstD_undescribed (types : List MetadataType) (name : String) :
    firstD (types.map undescribed) name = (firstD types name).undescribed := by
  rw [firstD, firstD, first?_undescribed]
  cases first? types name <;> rfl

end MetadataType

namespace Definitions

variable (d : Definitions) (c : Config)

theorem carriedNames_undescribed : d.undescribed.carriedNames c = d.carriedNames c := by
  simp only [carriedNames, undescribed, List.flatMap_map, Metric.undescribed, List.map_map]
  rfl

theorem enumeratedNames_undescribed : d.undescribed.enumeratedNames c = d.enumeratedNames c := by
  rw [enumeratedNames, enumeratedNames, carriedNames_undescribed, undescribed,
    MetadataType.isEnumerated_undescribed]

theorem typeNames_undescribed : d.undescribed.typeNames c = d.typeNames c := by
  rw [typeNames, typeNames, enumeratedNames_undescribed, undescribed, List.map_map]
  rfl

theorem metadataType?_undescribed (name : String) :
    d.undescribed.metadataType? name = (d.metadataType? name).map MetadataType.undescribed :=
  MetadataType.first?_undescribed d.types name

/-- Whether definitions give a source does not depend on what they say. -/
theorem acceptable_undescribed_iff : Acceptable d.undescribed c ↔ Acceptable d c := by
  have hdeclared (name : String) :
      (∃ t, d.undescribed.metadataType? name = some t ∧ (t.allowedValues ≠ none ∨
          t.kind ∈ [none, some "string", some "int", some "double", some "boolean"]))
        ↔ ∃ t, d.metadataType? name = some t ∧ (t.allowedValues ≠ none ∨
          t.kind ∈ [none, some "string", some "int", some "double", some "boolean"]) := by
    rw [metadataType?_undescribed]
    cases d.metadataType? name <;> simp [MetadataType.undescribed]
  have hunreserved :
      (∀ m ∈ d.undescribed.metrics, ∀ r ∈ m.metadata, ClientField.isReserved r.typeName = false)
        ↔ ∀ m ∈ d.metrics, ∀ r ∈ m.metadata, ClientField.isReserved r.typeName = false := by
    simp [undescribed, Metric.undescribed, Reference.undescribed]
  have htypes : isEnumerated d.undescribed.types = isEnumerated d.types :=
    MetadataType.isEnumerated_undescribed d.types
  have hnamed :
      (∀ m ∈ d.undescribed.metrics, Text.isIdentifier (Text.pascalCase m.name) = true)
        ↔ ∀ m ∈ d.metrics, Text.isIdentifier (Text.pascalCase m.name) = true := by
    simp [undescribed, Metric.undescribed]
  have hcarried := d.carriedNames_undescribed c
  have hnodup := d.typeNames_undescribed c
  constructor
  · rintro ⟨hsettings, hresolve, hfree, hapart, hidentifiers, hdistinct⟩
    rw [hcarried] at hresolve hapart
    rw [htypes] at hapart
    exact ⟨hsettings, fun name hname => (hdeclared name).mp (hresolve name hname),
      hunreserved.mp hfree, hapart, hnamed.mp hidentifiers, hnodup ▸ hdistinct⟩
  · rintro ⟨hsettings, hresolve, hfree, hapart, hidentifiers, hdistinct⟩
    rw [← hcarried] at hresolve hapart
    rw [← htypes] at hapart
    exact ⟨hsettings, fun name hname => (hdeclared name).mpr (hresolve name hname),
      hunreserved.mpr hfree, hapart, hnamed.mpr hidentifiers, hnodup ▸ hdistinct⟩

end Definitions

/-! ### What they declare -/

namespace Synthesis

variable (c : Config) (d : Definitions)

theorem baseTypeOf_undescribed (types : List MetadataType) :
    (baseTypeOf (types.map MetadataType.undescribed) c).undocumented
      = (baseTypeOf types c).undocumented := by
  have hfield (name : String) :
      (commonFieldOf (types.map MetadataType.undescribed) name).undocumented
        = (commonFieldOf types name).undocumented := by
    rw [commonFieldOf, MetadataType.firstD_undescribed]
    rfl
  simp only [Interface.undocumented, baseTypeOf, List.map_append, List.map_map, Function.comp_def,
    hfield]

theorem effectiveReferences_undescribed (m : Metric) :
    effectiveReferences m.undescribed = (effectiveReferences m).map Reference.undescribed :=
  keepFirst_map Reference.typeName Reference.undescribed (fun _ => rfl) m.metadata

theorem metricOf_undescribed (types : List MetadataType) (m : Metric) :
    (metricOf (types.map MetadataType.undescribed) c m.undescribed).undescribed
      = (metricOf types c m).undescribed := by
  simp only [metricOf, effectiveReferences_undescribed, ResolvedMetric.undescribed, List.map_map,
    Function.comp_def, fieldOf, MetadataType.firstD_undescribed]
  rfl

theorem metricsOf_undescribed :
    (metricsOf c d.undescribed).map ResolvedMetric.undescribed
      = (metricsOf c d).map ResolvedMetric.undescribed := by
  simp only [metricsOf, Definitions.undescribed, List.map_map, Function.comp_def,
    metricOf_undescribed]

theorem unionsOf_undescribed : unionsOf c d.undescribed = unionsOf c d := by
  have hunion (name : String) : Registration.ofName d.undescribed.types name
      = Registration.ofName d.types name := by
    rw [Registration.ofName, Registration.ofName, Definitions.undescribed,
      MetadataType.first?_undescribed, Option.bind_map]
    rfl
  simp only [unionsOf_eq, d.enumeratedNames_undescribed, hunion]

end Synthesis

theorem Interface.undocumented_undocumented (i : Interface) :
    i.undocumented.undocumented = i.undocumented := by
  simp only [undocumented, List.map_map]
  rfl

namespace ResolvedMetric

variable (m : ResolvedMetric)

theorem undocumented_interface_undescribed (base : String) :
    (m.undescribed.interface base).undocumented = (m.interface base).undocumented := by
  simp only [Interface.undocumented, interface, undescribed, List.filter_map, List.map_map]
  rfl

theorem ofMetric_undescribed : RuntimeRecord.ofMetric m.undescribed = .ofMetric m := by
  simp only [RuntimeRecord.ofMetric, requiredFields, undescribed, List.filter_map, List.map_map]
  rfl

end ResolvedMetric

namespace Synthesis

variable (c : Config) (d : Definitions)

/-- What is assembled from descriptions is documentation. -/
theorem undocumented_assemble (base : Interface) (metrics : List ResolvedMetric)
    (unions : List LiteralUnion) :
    (assemble c base metrics unions).undocumented.declarations
      = (assemble c base.undocumented (metrics.map ResolvedMetric.undescribed)
          unions).undocumented.declarations := by
  have htable : RuntimeTable.ofMetrics (metrics.map ResolvedMetric.undescribed)
      = .ofMetrics metrics := by
    simp only [RuntimeTable.ofMetrics, List.map_map, Function.comp_def,
      ResolvedMetric.ofMetric_undescribed]
    rfl
  have hclass :
      (AccessorClass.ofMetrics c.clientClassName (metrics.map ResolvedMetric.undescribed)).undocumented
        = (AccessorClass.ofMetrics c.clientClassName metrics).undocumented := by
    simp only [AccessorClass.undocumented, AccessorClass.ofMetrics, List.map_map]
    rfl
  simp only [SourceUnit.undocumented, assemble, List.map_append, List.map_cons, List.map_nil,
    List.map_map, Function.comp_def, Declaration.undocumented, Interface.undocumented_undocumented,
    ResolvedMetric.undocumented_interface_undescribed, htable, hclass]
  rfl

theorem undocumented_unitOf_undescribed :
    (unitOf c d.undescribed).undocumented.declarations = (unitOf c d).undocumented.declarations := by
  rw [unitOf, unitOf, undocumented_assemble, undocumented_assemble c (baseTypeOf d.types c),
    metricsOf_undescribed, unionsOf_undescribed, Definitions.undescribed, baseTypeOf_undescribed]

end Synthesis

/-- **Descriptions cannot change code.** Without its block comments the text of a source has the
code that it has when every doc text and every mark of deprecation is erased. So has every source of
definitions that differ from these in descriptions only, whatever is said in them; and there is one
for them too. -/
theorem descriptions_leave_code {d : Definitions} {c : Config} {u : SourceUnit}
    (h : generate d c = .ok u) :
    ∃ code, code? u.render = some code ∧ code? u.undocumented.render = some code
      ∧ ∀ d' : Definitions, d'.undescribed = d.undescribed →
          ∃ u', generate d' c = .ok u' ∧ code? u'.render = some code := by
  obtain ⟨hacceptable, rfl⟩ := (generate_eq_ok_iff_acceptable d c u).mp h
  obtain ⟨code, hcode, hplain⟩ :=
    Source.exists_code (Synthesis.plain_bareNames_unitOf hacceptable.settings (d := d))
  refine ⟨code, hcode, hplain, fun d' hsame => ?_⟩
  have hacceptable' : Acceptable d' c := by
    rw [← d'.acceptable_undescribed_iff, hsame, d.acceptable_undescribed_iff]
    exact hacceptable
  refine ⟨_, (generate_eq_ok_iff_acceptable d' c _).mpr ⟨hacceptable', rfl⟩, ?_⟩
  obtain ⟨code', hcode', hplain'⟩ :=
    Source.exists_code (Synthesis.plain_bareNames_unitOf hacceptable'.settings (d := d'))
  have hdeclarations : (Synthesis.unitOf c d').undocumented.declarations
      = (Synthesis.unitOf c d).undocumented.declarations := by
    rw [← Synthesis.undocumented_unitOf_undescribed, hsame,
      Synthesis.undocumented_unitOf_undescribed]
  have heq : some code' = some code := by
    rw [← hplain', ← hplain]
    exact congrArg (fun declarations => code? (Source.render declarations)) hdeclarations
  exact hcode'.trans heq

/-- The sample, described by texts that end comments, open others and break lines. -/
def Definitions.sampleDescribed : Definitions where
  types := [{ MetadataType.enumerated "result" ["Succeeded", "Failed"] with
      description := some "*/ export const a = '/*' /*" },
    .primitive "duration" "double",
    { MetadataType.bare "awsRegion" with description := some "// '\n\n*/\u2028\t*\n/\r\n\"" }]
  metrics := [.bare "lambda_invoke" "*/\n/* `" [⟨"result", some true, some "\\*/"⟩,
    .optionalTo "duration", ⟨"duration", some true, some "*"⟩]]

theorem descriptions_leave_code_sample :
    ∃ code, code? (Synthesis.unitOf .sample .sample).render = some code
      ∧ code? (Synthesis.unitOf .sample .sample).undocumented.render = some code
      ∧ ∃ u', generate .sampleDescribed .sample = .ok u' ∧ code? u'.render = some code := by
  obtain ⟨code, hcode, hplain, hothers⟩ := descriptions_leave_code generate_sample
  exact ⟨code, hcode, hplain, hothers .sampleDescribed (by decide)⟩

end TelemetryTypes
