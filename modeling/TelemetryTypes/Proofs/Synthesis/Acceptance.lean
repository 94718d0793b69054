import TelemetryTypes.Proofs.Synthesis.TypeNames

/-!
# Which definitions give a source

`Acceptable` says without any order of steps what definitions and settings have to be: consistent
settings, names that are declared and have a type, no metric that claims a client's field, and type
names that do not collide. `generate_ok_iff_acceptable` says that a run gives a source for exactly
these, so nothing that one metric resolves can make another one fail or pass.
-/

namespace TelemetryTypes

open MetadataType (isEnumerated)

/-- What definitions and settings have to be for a source to come out. -/
structure Acceptable (d : Definitions) (c : Config) : Prop where
  settings : c.Valid
  /-- Every carried name is declared, and its first type lists values or has one of the kinds. -/
  declared : ∀ name ∈ d.carriedNames c, ∃ t, d.metadataType? name = some t ∧
    (t.allowedValues ≠ none ∨
      t.kind ∈ [none, some "string", some "int", some "double", some "boolean"])
  unreserved : ∀ m ∈ d.metrics, ∀ r ∈ m.metadata, ClientField.isReserved r.typeName = false
  /-- No two enumerated names give one union name. -/
  unions_apart : ∀ a ∈ d.carriedNames c, ∀ b ∈ d.carriedNames c,
    isEnumerated d.types a = true → isEnumerated d.types b = true →
      Text.pascalCase a = Text.pascalCase b → a = b
  metrics_named : ∀ m ∈ d.metrics, Text.isIdentifier (Text.pascalCase m.name) = true
  typeNames_nodup : (d.typeNames c).Nodup

namespace Synthesis

variable (c : Config) (d : Definitions)

theorem lawful_demands_iff :
    (∀ q ∈ demands c d, q.Lawful)
      ↔ ∀ m ∈ d.metrics, ∀ r ∈ m.metadata, ClientField.isReserved r.typeName = false := by
  constructor
  · intro hall m hm r hr
    have hname : r.typeName ∈ (metricDemands m).map Demand.name := by
      rw [map_name_metricDemands]
      simpa using (mem_map_keepFirst id _ _).mpr (List.mem_map_of_mem (f := id)
        (List.mem_map_of_mem (f := Reference.typeName) hr))
    obtain ⟨q, hq, heq⟩ := List.mem_map.mp hname
    have hmetric : q.byMetric = true := by
      obtain ⟨_, _, rfl⟩ := List.mem_map.mp hq
      rfl
    rw [← heq]
    exact hall q (List.mem_append_right _ (List.mem_flatMap.mpr ⟨m, hm, hq⟩)) hmetric
  · intro hall q hq hmetric
    rcases List.mem_append.mp hq with hbase | hmetrics
    · obtain ⟨name, _, rfl⟩ := List.mem_map.mp hbase
      cases hmetric
    · obtain ⟨m, hm, hq⟩ := List.mem_flatMap.mp hmetrics
      obtain ⟨r, hr, rfl⟩ := List.mem_map.mp hq
      exact hall m hm r ((keepFirstFrom_sublist _ _ _).subset hr)

/-- No demand of a source is at fault exactly when what it carries is declared and kept apart. -/
theorem settle_demands_eq_none_iff :
    (Demand.settle d.types [] (demands c d)).1 = none
      ↔ (∀ m ∈ d.metrics, ∀ r ∈ m.metadata, ClientField.isReserved r.typeName = false)
        ∧ (∀ name ∈ d.carriedNames c, Resolves d.types name)
        ∧ Apart d.types (d.carriedNames c) := by
  have hresolves : (∀ q ∈ demands c d, Resolves d.types q.name)
      ↔ ∀ name ∈ d.carriedNames c, Resolves d.types name := by
    simp only [← mem_resolvedNames, resolvedNames, List.forall_mem_map]
  have hapart : Apart d.types (resolvedNames c d) ↔ Apart d.types (d.carriedNames c) := by
    simp only [Apart, mem_resolvedNames]
  rw [Demand.settle_eq_none_iff (by simp [Apart]), List.nil_append, ← resolvedNames, hapart,
    forall₂_and, lawful_demands_iff, hresolves, and_assoc]

end Synthesis

theorem generate_eq_ok_iff (d : Definitions) (c : Config) (u : SourceUnit) :
    generate d c = .ok u
      ↔ (c.check = .ok () ∧ (Demand.settle d.types [] (Synthesis.demands c d)).1 = none
          ∧ Claim.settle [] (Synthesis.claimsOf c d) = .ok ())
        ∧ u = Synthesis.unitOf c d := by
  rw [generate_eq]
  cases c.check with
  | error e => simp
  | ok _ =>
      cases (Demand.settle d.types [] (Synthesis.demands c d)).1 with
      | some e => simp
      | none => cases Claim.settle [] (Synthesis.claimsOf c d) <;> simp [eq_comm]

theorem resolves_iff (d : Definitions) (name : String) :
    Resolves d.types name ↔ ∃ t, d.metadataType? name = some t ∧
      (t.allowedValues ≠ none ∨
        t.kind ∈ [none, some "string", some "int", some "double", some "boolean"]) := by
  simp only [Resolves, isSome_declared?_iff, ← Option.isSome_iff_ne_none]
  rfl

/-- Definitions that are acceptable give the unit that is read off them, and no others give one. -/
theorem generate_eq_ok_iff_acceptable (d : Definitions) (c : Config) (u : SourceUnit) :
    generate d c = .ok u ↔ Acceptable d c ∧ u = Synthesis.unitOf c d := by
  rw [generate_eq_ok_iff, Config.check_eq_ok_iff, Synthesis.settle_demands_eq_none_iff,
    Synthesis.settle_claimsOf_eq_ok_iff]
  simp only [resolves_iff]
  constructor
  · rintro ⟨⟨hvalid, ⟨hfree, hdeclared, hapart⟩, hnamed, hnodup⟩, hunit⟩
    exact ⟨⟨hvalid, hdeclared, hfree, hapart, hnamed, hnodup⟩, hunit⟩
  · rintro ⟨h, hunit⟩
    exact ⟨⟨h.settings, ⟨h.unreserved, h.declared, h.unions_apart⟩, h.metrics_named,
      h.typeNames_nodup⟩, hunit⟩

/-- **A run gives a source exactly for acceptable definitions.** -/
theorem generate_ok_iff_acceptable (d : Definitions) (c : Config) :
    (∃ u, generate d c = .ok u) ↔ Acceptable d c := by
  simp only [generate_eq_ok_iff_acceptable, exists_and_left, exists_eq, and_true]

/-! ### A small source

An instance for the statements about sources: a metric that requires a common name, leaves another
one alone, and refers to a name of its own twice. -/

/-- Definitions of one metric. -/
def Definitions.sample : Definitions where
  types := [.enumerated "result" ["Succeeded", "Failed"], .primitive "duration" "double",
    .bare "awsRegion"]
  metrics := [.bare "lambda_invoke" "Invokes a function" [.requiredTo "result",
    .optionalTo "duration", .requiredTo "duration"]]

def Config.sample : Config where
  baseTypeName := "MetricBase"
  clientClassName := "TelemetryBase"
  commonMetadata := ["result", "awsRegion"]
  overridableMetadata := ["awsRegion"]
  includeDefaults := false

theorem generate_sample :
    generate .sample .sample = .ok (Synthesis.unitOf .sample .sample) := by rfl

end TelemetryTypes
