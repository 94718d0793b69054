import Mathlib.Data.List.Nodup
import TelemetryTypes.Proofs.Config.Consistency
import TelemetryTypes.Proofs.Synthesis.Outcome

/-!
# Type names

A source settles its claims on type names one by one. `Claim.settle_eq_ok_iff` says what that
decides: the names are distinct, and those of metrics are identifiers. The claims are known from the
definitions: `map_name_claimsOf` lists their names, with one union for every distinct enumerated
name that the source carries.
-/

namespace TelemetryTypes

namespace Claim

/-- A claim whose name can stand in the source: a metric's has to be an identifier. -/
def Lawful (claim : Claim) : Prop :=
  ∀ metric, claim.claimant = .metric metric → Text.isIdentifier claim.name = true

theorem checkName_eq_ok_iff (claim : Claim) : checkName claim = .ok () ↔ claim.Lawful := by
  unfold checkName Lawful
  cases claim.claimant with
  | metric m => cases Text.isIdentifier claim.name <;> simp
  | _ => simp

theorem settle_eq_ok_iff (held claims : List Claim) :
    settle held claims = .ok ()
      ↔ (∀ claim ∈ claims, claim.Lawful) ∧ (claims.map name).Nodup
        ∧ ∀ claim ∈ claims, claim.name ∉ held.map name := by
  induction claims generalizing held with
  | nil => simp [settle]
  | cons claim rest ih =>
      rw [settle, Config.bind_eq_ok_iff, checkName_eq_ok_iff]
      cases hheld : held.find? (·.name == claim.name) with
      | some existing =>
          have hmem : claim.name ∈ held.map name :=
            List.mem_map.mpr ⟨existing, List.mem_of_find?_eq_some hheld, by
              simpa using List.find?_some hheld⟩
          refine iff_of_false (by simp) fun h => ?_
          exact h.2.2 claim List.mem_cons_self hmem
      | none =>
          have hnot : claim.name ∉ held.map name := by
            intro hmem
            obtain ⟨existing, hexisting, heq⟩ := List.mem_map.mp hmem
            simpa [heq] using List.find?_eq_none.mp hheld existing hexisting
          simp only [ih, List.forall_mem_cons, List.map_cons, List.nodup_cons, List.map_append,
            List.map_nil, List.mem_append, List.mem_singleton, not_or, hnot, not_false_eq_true,
            true_and]
          constructor
          · rintro ⟨hclaim, hrest, hnodup, hapart⟩
            refine ⟨⟨hclaim, hrest⟩, ⟨fun hmem => ?_, hnodup⟩, fun other ho => (hapart other ho).1⟩
            obtain ⟨other, hother, heq⟩ := List.mem_map.mp hmem
            exact (hapart other hother).2 heq
          · rintro ⟨⟨hclaim, hrest⟩, ⟨hname, hnodup⟩, hapart⟩
            refine ⟨hclaim, hrest, hnodup, fun other ho => ⟨hapart other ho, fun heq => ?_⟩⟩
            exact hname (heq ▸ List.mem_map_of_mem ho)

end Claim

open MetadataType (isEnumerated enumeratedAmong)

namespace Definitions

/-- The names that a source carries: the common ones, and then what its metrics refer to. -/
def carriedNames (d : Definitions) (c : Config) : List String :=
  c.commonMetadata ++ d.metrics.flatMap fun m => m.metadata.map Reference.typeName

/-- The distinct enumerated names that a source carries, in the order of first occurrence. -/
def enumeratedNames (d : Definitions) (c : Config) : List String :=
  ((d.carriedNames c).filter (isEnumerated d.types)).eraseDups

/-- The names that a source exports as types: those of the base type and of the client class, the
fixed ones, those of its metrics and those of its unions. -/
def typeNames (d : Definitions) (c : Config) : List String :=
  [c.baseTypeName, c.clientClassName]
    ++ ["MetricDefinition", "MetricShapes", "MetricName", "Metadata", "Span", "Metric"]
    ++ d.metrics.map (fun m => Text.pascalCase m.name)
    ++ (d.enumeratedNames c).map Text.pascalCase

end Definitions

namespace Synthesis

variable (c : Config) (d : Definitions)

theorem map_name_metricDemands (m : Metric) :
    (metricDemands m).map Demand.name = keepFirst id (m.metadata.map Reference.typeName) := by
  have hnames := map_keepFirstFrom Reference.typeName [] m.metadata
  simpa [metricDemands, effectiveReferences, keepFirst, Function.comp_def] using hnames

theorem resolvedNames_eq :
    resolvedNames c d = c.commonMetadata
      ++ d.metrics.flatMap fun m => keepFirst id (m.metadata.map Reference.typeName) := by
  simp only [resolvedNames, demands, baseDemands, List.map_append, List.map_map, List.map_flatMap,
    map_name_metricDemands, Function.comp_def, List.map_id']

/-- References that repeat a name make no difference to what is carried. -/
theorem keepFirst_resolvedNames :
    keepFirst id (resolvedNames c d) = keepFirst id (d.carriedNames c) := by
  rw [resolvedNames_eq, Definitions.carriedNames, keepFirst, keepFirstFrom_append,
    keepFirstFrom_flatMap_keepFirst, ← keepFirstFrom_append, keepFirst]

theorem mem_resolvedNames {name : String} :
    name ∈ resolvedNames c d ↔ name ∈ d.carriedNames c := by
  have hcarried := mem_map_keepFirst id (d.carriedNames c) name
  have hresolved := mem_map_keepFirst id (resolvedNames c d) name
  rw [← keepFirst_resolvedNames] at hcarried
  simpa using hresolved.symm.trans hcarried

theorem enumeratedAmong_resolvedNames :
    enumeratedAmong d.types (resolvedNames c d) = d.enumeratedNames c := by
  rw [Definitions.enumeratedNames, ← keepFirst_id, enumeratedAmong, keepFirst, keepFirst,
    ← filter_keepFirstFrom, ← filter_keepFirstFrom]
  exact congrArg _ (keepFirst_resolvedNames c d)

/-- A source has one union for every distinct enumerated name that it carries. -/
theorem unionsOf_eq :
    unionsOf c d = (d.enumeratedNames c).map fun name => (Registration.ofName d.types name).union := by
  simp only [unionsOf, Registry.unions, Registry.ofNames, enumeratedAmong_resolvedNames,
    List.map_map, Function.comp_def]

theorem mem_enumeratedNames {name : String} :
    name ∈ d.enumeratedNames c ↔ name ∈ d.carriedNames c ∧ isEnumerated d.types name = true := by
  rw [Definitions.enumeratedNames, List.mem_eraseDups, List.mem_filter]

theorem map_name_unionsOf :
    (unionsOf c d).map LiteralUnion.name = (d.enumeratedNames c).map Text.pascalCase := by
  rw [unionsOf_eq, List.map_map]
  rfl

theorem map_name_claimsOf : (claimsOf c d).map Claim.name = d.typeNames c := by
  simp only [claimsOf, Claim.all, Claim.fixed, unionsOf_eq, metricsOf, Definitions.typeNames,
    List.map_append, List.map_map, Function.comp_def]
  rfl

theorem lawful_claimsOf_iff :
    (∀ claim ∈ claimsOf c d, claim.Lawful)
      ↔ ∀ m ∈ d.metrics, Text.isIdentifier (Text.pascalCase m.name) = true := by
  constructor
  · intro hall m hm
    refine hall ⟨Text.pascalCase m.name, .metric m.name⟩ ?_ m.name rfl
    refine List.mem_append_left _ (List.mem_append_right _ ?_)
    exact List.mem_map.mpr ⟨metricOf d.types c m, List.mem_map_of_mem hm, rfl⟩
  · intro hall claim hclaim metric hmetric
    simp only [claimsOf, Claim.all, Claim.fixed, metricsOf, List.mem_append, List.mem_map] at hclaim
    rcases hclaim with ((hfirst | hfixed) | ⟨_, ⟨m, hm, rfl⟩, rfl⟩) | ⟨u, _, rfl⟩
    · simp at hfirst
      rcases hfirst with rfl | rfl <;> cases hmetric
    · simp at hfixed
      rcases hfixed with rfl | rfl | rfl | rfl | rfl | rfl <;> cases hmetric
    · exact hall m hm
    · cases hmetric

/-- The claims on type names settle exactly when the names are distinct and those of metrics are
identifiers. -/
theorem settle_claimsOf_eq_ok_iff :
    Claim.settle [] (claimsOf c d) = .ok ()
      ↔ (∀ m ∈ d.metrics, Text.isIdentifier (Text.pascalCase m.name) = true)
        ∧ (d.typeNames c).Nodup := by
  rw [Claim.settle_eq_ok_iff, lawful_claimsOf_iff, map_name_claimsOf]
  simp

end Synthesis

end TelemetryTypes
