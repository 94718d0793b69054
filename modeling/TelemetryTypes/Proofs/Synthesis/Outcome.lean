import TelemetryTypes.Generation
import TelemetryTypes.Proofs.Resolution.Demand

/-!
# What a run gives

A run that meets no fault gives values that can be read off the definitions and the settings, with
no registry in sight: `baseTypeOf`, `metricOf`, `unionsOf` and the unit made of them. `generate_eq`
is the run in this form: the settings are checked, then the demands of the base type and of the
metrics are settled, then the claims on type names. Everything about generated units starts from
here.
-/

namespace TelemetryTypes

open MetadataType (first? firstD)

namespace Synthesis

variable (types : List MetadataType) (c : Config)

/-! ### Values -/

/-- The field of the base type for a common name. -/
def commonFieldOf (name : String) : Field :=
  { name, type := (firstD types name).target, optional := true,
    doc := (firstD types name).description, deprecated := false }

def baseTypeOf : Interface :=
  { name := c.baseTypeName, doc := some baseTypeDoc, extends? := none,
    fields := c.commonMetadata.map (commonFieldOf types) ++ ClientField.all.map ClientField.toField }

/-- The field for a reference. -/
def fieldOf (r : Reference) : ResolvedField :=
  { name := r.typeName, type := (firstD types r.typeName).target, required := r.isRequired,
    inherited := c.isCommon r.typeName, doc := fieldDoc r (firstD types r.typeName) }

def metricOf (m : Metric) : ResolvedMetric :=
  { name := m.name, typeName := m.typeName, description := m.description, unit := m.unit,
    passive := m.passive.getD false, trackPerformance := m.trackPerformance.getD false,
    fields := (effectiveReferences m).map (fieldOf types c) }

/-! ### Demands -/

def baseDemands : List Demand := c.commonMetadata.map fun name => ⟨name, c.baseTypeName, false⟩

def metricDemands (m : Metric) : List Demand :=
  (effectiveReferences m).map fun r => ⟨r.typeName, m.name, true⟩

/-- What a source asks for, in the order in which it is resolved. -/
def demands (d : Definitions) : List Demand := baseDemands c ++ d.metrics.flatMap metricDemands

theorem performs_baseType :
    Performs types (baseType types c) (baseDemands c) (baseTypeOf types c) := by
  have hfield (name : String) : Performs types (commonField types c.baseTypeName name)
      [⟨name, c.baseTypeName, false⟩] (commonFieldOf types name) :=
    performs_map (performs_resolveName name c.baseTypeName) _
  rw [baseDemands, List.map_eq_flatMap]
  exact performs_map (performs_mapM hfield c.commonMetadata) _

theorem performs_resolveReference (metric : String) (r : Reference) :
    Performs types (resolveReference types c metric r) [⟨r.typeName, metric, true⟩]
      (fieldOf types c r) := by
  intro names
  unfold resolveReference
  cases hreserved : ClientField.isReserved r.typeName with
  | true => simp [Demand.settle, Demand.fault?, hreserved, answer_throw]
  | false =>
      simp only [Bool.false_eq_true, ite_false, answer_bind, answer_resolveName, Demand.settle,
        Demand.fault?, hreserved, Bool.and_false]
      cases unresolved? types names r.typeName metric <;> rfl

theorem performs_resolveMetric (m : Metric) :
    Performs types (resolveMetric types c m) (metricDemands m) (metricOf types c m) := by
  rw [metricDemands, List.map_eq_flatMap]
  exact performs_map
    (performs_mapM (performs_resolveReference types c m.name) (effectiveReferences m)) _

/-! ### The unit -/

/-- The names that a source resolves, in order. -/
def resolvedNames (d : Definitions) : List String := (demands c d).map Demand.name

/-- The unions of a source. -/
def unionsOf (d : Definitions) : List LiteralUnion :=
  (Registry.ofNames d.types (resolvedNames c d)).unions

def metricsOf (d : Definitions) : List ResolvedMetric := d.metrics.map (metricOf d.types c)

def claimsOf (d : Definitions) : List Claim := Claim.all c (metricsOf c d) (unionsOf c d)

def unitOf (d : Definitions) : SourceUnit :=
  assemble c (baseTypeOf d.types c) (metricsOf c d) (unionsOf c d)

/-- The base type and the metrics, as one step. -/
def resolveAll (d : Definitions) : Resolving (Interface × List ResolvedMetric) := do
  let base ← baseType d.types c
  let metrics ← d.metrics.mapM (resolveMetric d.types c)
  return (base, metrics)

theorem performs_resolveAll (d : Definitions) :
    Performs d.types (resolveAll c d) (demands c d) (baseTypeOf d.types c, metricsOf c d) :=
  performs_bind (performs_baseType d.types c)
    (performs_map (performs_mapM (performs_resolveMetric d.types c) d.metrics) _)

theorem synthesize_eq (d : Definitions) :
    synthesize d c = resolveAll c d >>= fun resolved => do
      let unions := (← get).unions
      ExceptT.mk (pure (Claim.settle [] (Claim.all c resolved.2 unions)))
      return assemble c resolved.1 resolved.2 unions := by
  simp only [synthesize, resolveAll, bind_assoc, pure_bind]

theorem answer_synthesize (d : Definitions) :
    (Resolving.answer (synthesize d c) .empty).1
      = match (Demand.settle d.types [] (demands c d)).1 with
        | some e => .error e
        | none => (Claim.settle [] (claimsOf c d)).map fun _ => unitOf c d := by
  have hempty : Registry.empty = .ofNames d.types [] := rfl
  rw [synthesize_eq, answer_bind, hempty, performs_resolveAll c d []]
  cases hsettle : Demand.settle d.types [] (demands c d) with
  | mk fault after =>
      cases fault with
      | some e => rfl
      | none =>
          obtain rfl : after = resolvedNames c d := Demand.names_of_settle hsettle
          change (Resolving.answer (ExceptT.mk (pure (Claim.settle [] (claimsOf c d))) >>= fun _ =>
            pure (unitOf c d)) (.ofNames d.types (resolvedNames c d))).1 = _
          rw [answer_bind, answer_lift]
          cases Claim.settle [] (claimsOf c d) <;> rfl

end Synthesis

/-- A run checks the settings, settles the demands and settles the claims on type names. -/
theorem generate_eq (d : Definitions) (c : Config) :
    generate d c
      = match c.check with
        | .error e => .error (.config e.message)
        | .ok () =>
            match (Demand.settle d.types [] (Synthesis.demands c d)).1 with
            | some e => .error (.resolution e)
            | none =>
                match Claim.settle [] (Synthesis.claimsOf c d) with
                | .error e => .error (.resolution e)
                | .ok () => .ok (Synthesis.unitOf c d) := by
  rw [generate, Synthesis.answer_synthesize]
  cases c.check with
  | error e => rfl
  | ok _ =>
      cases (Demand.settle d.types [] (Synthesis.demands c d)).1 with
      | some e => rfl
      | none => cases Claim.settle [] (Synthesis.claimsOf c d) <;> rfl

end TelemetryTypes
