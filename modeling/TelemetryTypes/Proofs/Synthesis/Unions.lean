import Mathlib.Data.List.Forall2
import TelemetryTypes.Proofs.Synthesis.References

/-!
# The unions of a source

Names are resolved one after the other and leave their unions in a registry on the way, where a
second resolution of a name adds nothing and a name in the way of another one ends the run. What is
registered in the end can still be read off the definitions: the names that the source carries, those
of them that are enumerated, each where it first occurs. `unions_follow_names` says so of what is
declared.
-/

namespace TelemetryTypes

open MetadataType (isEnumerated)

/-- The union that a source declares for a name: named by it, with the values of its first type. -/
def Definitions.DeclaresUnion (d : Definitions) (name : String) (v : LiteralUnion) : Prop :=
  v.name = Text.pascalCase name
    ∧ ∃ t, d.metadataType? name = some t ∧ t.allowedValues = some v.literals

theorem MetadataType.isEnumerated_eq_any (d : Definitions) :
    isEnumerated d.types = fun name => (d.metadataType? name).any (·.allowedValues.isSome) := by
  funext name
  change ((d.metadataType? name).bind MetadataType.allowedValues).isSome = _
  cases d.metadataType? name <;> rfl

theorem declaresUnion_ofName {d : Definitions} {name : String}
    (henum : isEnumerated d.types name = true) :
    d.DeclaresUnion name (Registration.ofName d.types name).union := by
  obtain ⟨t, values, hfirst, hvalues⟩ := MetadataType.exists_of_isEnumerated henum
  have hliterals : (Registration.ofName d.types name).union.literals = values := by
    simp [Registration.ofName, hfirst, hvalues]
  exact ⟨rfl, t, hfirst, hliterals ▸ hvalues⟩

/-- **Unions follow the names that are carried.** Take the common names and then, metric by metric,
the names that it refers to; of these the ones whose first type lists values; of each its first
occurrence. For these names, in this order, a source declares one union each, and no other. -/
theorem unions_follow_names {d : Definitions} {c : Config} {u : SourceUnit}
    (h : generate d c = .ok u) :
    List.Forall₂ d.DeclaresUnion
      ((c.commonMetadata ++ d.metrics.flatMap fun m => m.metadata.map Reference.typeName).filter
        fun name => (d.metadataType? name).any (·.allowedValues.isSome)).eraseDups
      u.unions := by
  obtain ⟨-, rfl⟩ := (generate_eq_ok_iff_acceptable d c u).mp h
  have hnames : ((c.commonMetadata
      ++ d.metrics.flatMap fun m => m.metadata.map Reference.typeName).filter
        fun name => (d.metadataType? name).any (·.allowedValues.isSome)).eraseDups
      = d.enumeratedNames c := by
    rw [Definitions.enumeratedNames, MetadataType.isEnumerated_eq_any]
    rfl
  rw [hnames, Synthesis.unions_unitOf, Synthesis.unionsOf_eq, List.forall₂_map_right_iff,
    List.forall₂_same]
  exact fun name hname => declaresUnion_ofName ((Synthesis.mem_enumeratedNames c d).mp hname).2

/-- Metrics that refer to enumerated names of their own and to a common one, each of them also where
it adds nothing. -/
def Definitions.sampleUnions : Definitions where
  types := [.enumerated "runtime" ["nodejs", "python"], .primitive "duration" "double",
    .enumerated "result" ["Succeeded", "Failed"], .enumerated "source" ["editor"],
    .enumerated "runtime" ["java"], .bare "awsRegion", .enumerated "unused" ["x"]]
  metrics := [
    .bare "lambda_invoke" "Invokes a function" [.requiredTo "source", .optionalTo "duration",
      .optionalTo "runtime", .requiredTo "source"],
    .bare "lambda_create" "Creates a function" [.requiredTo "runtime", .optionalTo "result"]]

theorem unions_follow_names_sample :
    List.Forall₂ Definitions.sampleUnions.DeclaresUnion ["result", "source", "runtime"]
      (Synthesis.unitOf .sample .sampleUnions).unions :=
  unions_follow_names (c := .sample) rfl

end TelemetryTypes
