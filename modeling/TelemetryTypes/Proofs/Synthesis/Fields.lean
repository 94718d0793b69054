import TelemetryTypes.Proofs.Resolution.Success
import TelemetryTypes.Proofs.Synthesis.Acceptance

/-!
# The fields of a resolved metric

A field is made of three things: the first reference to its name, the first type declared by that
name, and the settings. `ResolvedMetric.Follows` says what each of them settles. Neither the
references behind the first one nor the registry are among them: the registry decides whether a
metric resolves, and `fields_follow_references` says of every registry that what comes out is the
same.
-/

namespace TelemetryTypes

open Resolving (answer)
open Synthesis (effectiveReferences fieldDoc fieldOf metricOf resolveMetric resolveReference)

/-- What a resolved metric says, in terms of the references of the metric. -/
structure ResolvedMetric.Follows (types : List MetadataType) (c : Config) (m : Metric)
    (resolved : ResolvedMetric) : Prop where
  /-- One field for every name that is referred to, where it is first referred to. -/
  names_eq : resolved.fields.map ResolvedField.name
    = (m.metadata.map Reference.typeName).eraseDups
  field_eq : ∀ f ∈ resolved.fields, ∃ r t,
    m.metadata.find? (·.typeName == f.name) = some r ∧ types.find? (·.name == f.name) = some t
      ∧ t.target? = some f.type ∧ f.required = r.required.getD true
      ∧ (f.inherited = true ↔ f.name ∈ c.commonMetadata)
      ∧ f.doc = (r.description.filter fun text => !Text.isBlankText text).or t.description
  /-- The interface has the fields that are required or not common, and no others. -/
  declared_eq : ∀ base, (resolved.interface base).fields
    = (resolved.fields.filter fun f => f.required || !c.commonMetadata.contains f.name).map
        fun f => { name := f.name, type := f.type, optional := !f.required, doc := f.doc,
                   deprecated := false }

namespace Synthesis

variable {types : List MetadataType} {c : Config} {m : Metric}

/-! ### What is resolved, from any registry -/

theorem ensures_resolveReference (metric : String) (r : Reference) :
    Ensures (resolveReference types c metric r) fun f =>
      f = fieldOf types c r ∧ Resolves types r.typeName := by
  unfold resolveReference
  cases ClientField.isReserved r.typeName with
  | true => exact .throw _ _
  | false =>
      refine (ensures_resolveName r.typeName metric).bind fun resolved hresolved => ?_
      rw [hresolved.1]
      exact .pure ⟨rfl, hresolved.2⟩

theorem ensures_resolveMetric (m : Metric) :
    Ensures (resolveMetric types c m) fun resolved =>
      resolved = metricOf types c m ∧ ∀ r ∈ effectiveReferences m, Resolves types r.typeName := by
  refine (Ensures.mapM (ensures_resolveReference m.name) (effectiveReferences m)).bind
    fun fields hfields => ?_
  rw [hfields.1]
  exact .pure ⟨rfl, hfields.2⟩

/-! ### What it says -/

theorem fieldDoc_eq (r : Reference) (t : MetadataType) :
    fieldDoc r t = (r.description.filter fun text => !Text.isBlankText text).or t.description := by
  unfold fieldDoc
  cases r.description with
  | none => rfl
  | some text => cases hblank : Text.isBlankText text <;> simp [Option.filter, hblank]

theorem find?_of_mem_effectiveReferences {r : Reference} (hr : r ∈ effectiveReferences m) :
    m.metadata.find? (·.typeName == r.typeName) = some r := by
  rw [← find?_keepFirst Reference.typeName]
  exact find?_of_mem_of_nodup Reference.typeName
    (nodup_map_keepFirst Reference.typeName m.metadata) hr

theorem follows_metricOf (h : ∀ r ∈ effectiveReferences m, Resolves types r.typeName) :
    (metricOf types c m).Follows types c m where
  names_eq := by
    have hnames : (metricOf types c m).fields.map ResolvedField.name
        = (keepFirst Reference.typeName m.metadata).map Reference.typeName := by
      rw [metricOf, List.map_map]
      rfl
    rw [hnames, keepFirst, map_keepFirstFrom]
    exact keepFirst_id _
  field_eq f hf := by
    obtain ⟨r, hr, rfl⟩ := List.mem_map.mp hf
    obtain ⟨t, hfirst, htarget⟩ := (h r hr).exists_target
    refine ⟨r, t, find?_of_mem_effectiveReferences hr, hfirst, htarget, rfl, ?_, ?_⟩
    · exact List.contains_iff_mem
    · rw [← fieldDoc_eq, ← MetadataType.firstD_of_first? hfirst]
      rfl
  declared_eq base := by
    have hdeclared : ∀ f ∈ (metricOf types c m).fields,
        f.isDeclared = (f.required || !c.commonMetadata.contains f.name) := by
      intro f hf
      obtain ⟨r, _, rfl⟩ := List.mem_map.mp hf
      exact Bool.or_comm _ _
    rw [ResolvedMetric.interface, List.filter_congr hdeclared]
    rfl

/-- References to names that are referred to further in front add nothing, whatever they say. -/
theorem effectiveReferences_append_of_subset {front repeats : List Reference}
    (hrepeats : repeats.map Reference.typeName ⊆ front.map Reference.typeName)
    (back : List Reference) (hmetadata : m.metadata = front ++ repeats ++ back) :
    effectiveReferences { m with metadata := front ++ back } = effectiveReferences m := by
  rw [effectiveReferences, effectiveReferences, hmetadata]
  exact (keepFirst_append_of_subset Reference.typeName hrepeats back).symm

end Synthesis

/-- **Fields follow the references.** When a metric resolves, after whatever was resolved before it,
it has one field for each name that it refers to, in the order of the first references, and each
says what the first reference, the first type of the name and the settings say. The result is the
same after any other history, and references to names that the metric refers to further in front can
be left out: they change nothing, whatever they say. -/
theorem fields_follow_references {types : List MetadataType} {c : Config} {m : Metric}
    {r r' : Registry} {resolved : ResolvedMetric}
    (h : answer (resolveMetric types c m) r = (.ok resolved, r')) :
    resolved.Follows types c m
      ∧ (∀ s s' other, answer (resolveMetric types c m) s = (.ok other, s') → other = resolved)
      ∧ ∀ front repeats back, m.metadata = front ++ repeats ++ back →
        repeats.map Reference.typeName ⊆ front.map Reference.typeName →
          resolveMetric types c { m with metadata := front ++ back } = resolveMetric types c m := by
  obtain ⟨rfl, hresolves⟩ := Synthesis.ensures_resolveMetric m r resolved r' h
  refine ⟨Synthesis.follows_metricOf hresolves, ?_, ?_⟩
  · intro s s' other hother
    exact (Synthesis.ensures_resolveMetric m s other s' hother).1
  · intro front repeats back hmetadata hrepeats
    rw [resolveMetric, resolveMetric,
      Synthesis.effectiveReferences_append_of_subset hrepeats back hmetadata]
    rfl

/-- A metric that requires a common name under a blank description, leaves another one alone, and
refers to two names again in other words. -/
def Metric.sampleRepeating : Metric :=
  .bare "lambda_invoke" "Invokes a function" [⟨"result", none, some " "⟩,
    ⟨"duration", some false, some "Time spent"⟩, .optionalTo "awsRegion",
    ⟨"duration", some true, some "Time lost"⟩, ⟨"result", some false, some "Outcome"⟩]

def MetadataType.sampleDescribed : List MetadataType :=
  [⟨"result", some "How it ended", some ["Succeeded", "Failed"], none⟩,
    .primitive "duration" "double", .bare "awsRegion", .enumerated "source" ["editor"]]

def ResolvedMetric.sampleRepeating : ResolvedMetric where
  name := "lambda_invoke"
  typeName := "LambdaInvoke"
  description := "Invokes a function"
  unit := none
  passive := false
  trackPerformance := false
  fields := [⟨"result", .named "Result", true, true, some "How it ended"⟩,
    ⟨"duration", .number, false, false, some "Time spent"⟩,
    ⟨"awsRegion", .string, false, true, none⟩]

theorem fields_follow_references_repeating :
    answer (resolveMetric MetadataType.sampleDescribed .sample .sampleRepeating)
        (.ofNames MetadataType.sampleDescribed ["source"])
      = (.ok .sampleRepeating, .ofNames MetadataType.sampleDescribed ["source", "result"])
      ∧ ResolvedMetric.sampleRepeating.Follows MetadataType.sampleDescribed .sample
        .sampleRepeating
      ∧ resolveMetric MetadataType.sampleDescribed .sample { Metric.sampleRepeating with
          metadata := [⟨"result", none, some " "⟩, ⟨"duration", some false, some "Time spent"⟩,
            .optionalTo "awsRegion"] }
        = resolveMetric MetadataType.sampleDescribed .sample .sampleRepeating := by
  have h : answer (resolveMetric MetadataType.sampleDescribed .sample .sampleRepeating)
      (.ofNames MetadataType.sampleDescribed ["source"])
      = (.ok .sampleRepeating, .ofNames MetadataType.sampleDescribed ["source", "result"]) := rfl
  obtain ⟨hfollows, _, hrepeats⟩ := fields_follow_references h
  refine ⟨h, hfollows, hrepeats [⟨"result", none, some " "⟩,
    ⟨"duration", some false, some "Time spent"⟩, .optionalTo "awsRegion"]
    [⟨"duration", some true, some "Time lost"⟩, ⟨"result", some false, some "Outcome"⟩] [] rfl ?_⟩
  decide

end TelemetryTypes
