import Mathlib.Data.List.Flatten
import TelemetryTypes.Proofs.Synthesis.Steps

/-!
# The fault that is reported

A run takes its steps in a fixed order: it resolves the common names, then what each metric refers
to, and then it settles the claims on type names. `firstFault?` is the run with nothing but its
failures left, and a run fails exactly when some step is at fault and reports the first such step.
`Blames` says what the error then tells about the definitions: who uses a name, and what is wrong
with the type of that name, or which two claimants want one type name.
-/

namespace TelemetryTypes

open MetadataType (isEnumerated)

namespace Synthesis

/-- No step among some is at fault. -/
def Sound (d : Definitions) (steps : List Step) : Prop :=
  ∀ front step back, steps = front ++ step :: back → ∀ e, ¬Faulty d front step e

/-- The error tells the fault of a step, and no step before it is at fault. -/
def FirstFault (d : Definitions) (steps : List Step) (e : ResolutionError) : Prop :=
  ∃ front step back, steps = front ++ step :: back ∧ Sound d front ∧ Faulty d front step e

end Synthesis

namespace Definitions

/-- The claims on type names: those of the base type, of the client class, of the fixed types, of
the metrics, and of the unions in the order in which their names first occur. -/
def claims (d : Definitions) (c : Config) : List Claim :=
  [⟨c.baseTypeName, .baseType⟩, ⟨c.clientClassName, .clientClass⟩] ++ Claim.fixed
    ++ d.metrics.map (fun m => ⟨Text.pascalCase m.name, .metric m.name⟩)
    ++ (d.enumeratedNames c).map fun name => ⟨Text.pascalCase name, .union (Text.pascalCase name)⟩

/-- The steps of a run: the common names, the names that each metric refers to, the claims. -/
def steps (d : Definitions) (c : Config) : List Synthesis.Step :=
  c.commonMetadata.map (fun name => .resolve ⟨name, c.baseTypeName, false⟩)
    ++ d.metrics.flatMap (fun m => (m.metadata.map Reference.typeName).eraseDups.map
        fun name => .resolve ⟨name, m.name, true⟩)
    ++ (d.claims c).map .settle

/-- The base type has a common name, or a metric with the name of the owner refers to it. -/
def Uses (d : Definitions) (c : Config) (owner name : String) : Prop :=
  owner = c.baseTypeName ∧ name ∈ c.commonMetadata
    ∨ ∃ m ∈ d.metrics, m.name = owner ∧ name ∈ m.metadata.map Reference.typeName

end Definitions

/-- What an error says of the definitions. -/
def ResolutionError.Blames (d : Definitions) (c : Config) : ResolutionError → Prop
  | unknownMetadataType owner name => d.Uses c owner name ∧ ∀ t ∈ d.types, t.name ≠ name
  | unknownKind metadata kind owner => d.Uses c owner metadata
      ∧ ∃ t, d.metadataType? metadata = some t ∧ t.allowedValues = none ∧ t.kind = some kind
        ∧ kind ∉ ["string", "int", "double", "boolean"]
  | reservedField metric field => field ∈ ClientField.all.map ClientField.name
      ∧ ∃ m ∈ d.metrics, m.name = metric ∧ field ∈ m.metadata.map Reference.typeName
  | invalidTypeName metric name => (∃ m ∈ d.metrics, m.name = metric)
      ∧ name = Text.pascalCase metric ∧ Text.isIdentifier name = false
  | typeNameCollision name existing incoming =>
      (∃ a b, [a, b].Sublist (d.carriedNames c) ∧ a ≠ b
        ∧ isEnumerated d.types a = true ∧ isEnumerated d.types b = true
        ∧ Text.pascalCase a = name ∧ Text.pascalCase b = name
        ∧ existing = Registry.claimant a ∧ incoming = Registry.claimant b)
      ∨ ∃ holder claim, [holder, claim].Sublist (d.claims c)
        ∧ holder.name = name ∧ claim.name = name
        ∧ existing = holder.claimant.description ∧ incoming = claim.claimant.description

/-! ### The failures of a run -/

namespace Synthesis

variable {types : List MetadataType} {before steps : List Step} {e : ResolutionError}

namespace Step

/-- The first failure of steps in a run that took some steps before them. -/
def firstFault? (types : List MetadataType) : List Step → List Step → Option ResolutionError
  | _, [] => none
  | before, step :: rest =>
      (step.fault? types before).or (firstFault? types (before ++ [step]) rest)

theorem firstFault?_append (before front back : List Step) :
    firstFault? types before (front ++ back)
      = (firstFault? types before front).or (firstFault? types (before ++ front) back) := by
  induction front generalizing before with
  | nil => simp [firstFault?]
  | cons step rest ih => simp [firstFault?, ih, Option.or_assoc]

theorem firstFault?_eq_some_iff :
    firstFault? types before steps = some e
      ↔ ∃ front step back, steps = front ++ step :: back ∧ firstFault? types before front = none
        ∧ step.fault? types (before ++ front) = some e := by
  constructor
  · intro hrun
    induction steps generalizing before with
    | nil => cases hrun
    | cons step rest ih =>
        rcases Option.or_eq_some_iff.mp hrun with hstep | ⟨hnone, hrest⟩
        · exact ⟨[], step, rest, rfl, rfl, by rwa [List.append_nil]⟩
        · obtain ⟨front, other, back, rfl, hfront, hother⟩ := ih hrest
          refine ⟨step :: front, other, back, rfl, ?_, ?_⟩
          · rw [firstFault?, hnone, Option.none_or, hfront]
          · rwa [List.append_cons]
  · rintro ⟨front, step, back, rfl, hfront, hstep⟩
    rw [firstFault?_append, hfront, Option.none_or, firstFault?, hstep, Option.some_or]

/-- Names are resolved as steps. -/
theorem firstFault?_map_resolve (before : List Step) (demands : List Demand) :
    firstFault? types before (demands.map .resolve)
      = (Demand.settle types (names before) demands).1 := by
  induction demands generalizing before with
  | nil => rfl
  | cons q rest ih =>
      simp only [List.map_cons, firstFault?, fault?, Demand.settle, ih, names_concat_resolve]
      cases q.fault? types (names before) <;> rfl

/-- Claims are settled as steps. -/
theorem settle_eq_firstFault? (types : List MetadataType) (before : List Step)
    (settled : List Claim) :
    Claim.settle (claims before) settled
      = match firstFault? types before (settled.map .settle) with
        | some e => .error e
        | none => .ok () := by
  induction settled generalizing before with
  | nil => rfl
  | cons claim rest ih =>
      have hrest := ih (before ++ [.settle claim])
      rw [claims_concat_settle] at hrest
      simp only [List.map_cons, firstFault?, fault?, Claim.fault?, Claim.settle]
      cases claim.checkName with
      | error e => rfl
      | ok _ =>
          cases (claims before).find? (·.name == claim.name) with
          | some holder => rfl
          | none => exact hrest

end Step

theorem Settled.nil : Settled types [] := ⟨by simp [Apart, Step.names], List.nodup_nil⟩

theorem Settled.append (hbefore : Settled types before)
    (hrun : Step.firstFault? types before steps = none) : Settled types (before ++ steps) := by
  induction steps generalizing before with
  | nil => rwa [List.append_nil]
  | cons step rest ih =>
      obtain ⟨hstep, hrest⟩ := Option.or_eq_none_iff.mp hrun
      rw [List.append_cons]
      exact ih (hbefore.concat hstep) hrest

theorem sound_iff (d : Definitions) (steps : List Step) :
    Step.firstFault? d.types [] steps = none ↔ Sound d steps := by
  constructor
  · rintro hrun front step back rfl e hfaulty
    obtain ⟨hfront, hrest⟩ := Option.or_eq_none_iff.mp (Step.firstFault?_append [] front _ ▸ hrun)
    have hfault := (Settled.nil.append hfront).fault?_eq_some_iff.mpr hfaulty
    rw [List.nil_append] at hfault hrest
    simp [Step.firstFault?, hfault] at hrest
  · intro hsound
    by_contra hne
    obtain ⟨e, hrun⟩ := Option.ne_none_iff_exists'.mp hne
    obtain ⟨front, step, back, rfl, hfront, hfault⟩ := Step.firstFault?_eq_some_iff.mp hrun
    exact hsound front step back rfl e
      ((Settled.nil.append hfront).fault?_eq_some_iff.mp hfault)

theorem firstFault_iff (d : Definitions) (steps : List Step) :
    Step.firstFault? d.types [] steps = some e ↔ FirstFault d steps e := by
  rw [Step.firstFault?_eq_some_iff, FirstFault]
  refine exists_congr fun front => exists_congr fun step => exists_congr fun back =>
    and_congr_right fun _ => ?_
  rw [← sound_iff]
  exact and_congr_right fun hfront => (Settled.nil.append hfront).fault?_eq_some_iff

/-! ### The steps of a run -/

variable (c : Config) (d : Definitions)

theorem claimsOf_eq_claims : claimsOf c d = d.claims c := by
  simp only [claimsOf, Claim.all, metricsOf, unionsOf_eq, Definitions.claims, List.map_map]
  rfl

theorem metricDemands_eq (m : Metric) : metricDemands m
    = (m.metadata.map Reference.typeName).eraseDups.map fun name => ⟨name, m.name, true⟩ := by
  have hnames : (m.metadata.map Reference.typeName).eraseDups
      = (effectiveReferences m).map Reference.typeName := by
    rw [← keepFirst_id, effectiveReferences, keepFirst, keepFirst, map_keepFirstFrom]
  rw [hnames, List.map_map]
  rfl

theorem steps_eq : d.steps c = (demands c d).map .resolve ++ (claimsOf c d).map .settle := by
  have hmetric (m : Metric) : (metricDemands m).map Step.resolve
      = (m.metadata.map Reference.typeName).eraseDups.map
          fun name => .resolve ⟨name, m.name, true⟩ := by
    rw [metricDemands_eq, List.map_map]
    rfl
  simp only [Definitions.steps, claimsOf_eq_claims, demands, baseDemands, List.map_append,
    List.map_map, List.map_flatMap, hmetric]
  rfl

theorem names_steps : Step.names (d.steps c) = resolvedNames c d := by
  simp [steps_eq, Step.names, List.filterMap_map, Step.demand?, resolvedNames, Function.comp_def]

theorem claims_steps : Step.claims (d.steps c) = d.claims c := by
  simp [steps_eq, Step.claims, List.filterMap_map, Step.claim?, claimsOf_eq_claims,
    Function.comp_def]

/-- A run under consistent settings fails like its steps, and gives the unit where these do not. -/
theorem generate_eq_firstFault? (hcheck : c.check = .ok ()) :
    generate d c
      = match Step.firstFault? d.types [] (d.steps c) with
        | some e => .error (.resolution e)
        | none => .ok (unitOf c d) := by
  have hempty : Step.claims ((demands c d).map .resolve) = [] := by
    simp [Step.claims, List.filterMap_map, Step.claim?, Function.comp_def]
  have hclaims := Step.settle_eq_firstFault? d.types ((demands c d).map .resolve) (claimsOf c d)
  have hdemands : Step.firstFault? d.types [] ((demands c d).map .resolve)
      = (Demand.settle d.types [] (demands c d)).1 := Step.firstFault?_map_resolve [] (demands c d)
  rw [hempty] at hclaims
  rw [generate_eq, hcheck, hclaims, steps_eq, Step.firstFault?_append, hdemands, List.nil_append]
  cases (Demand.settle d.types [] (demands c d)).1 with
  | some e => rfl
  | none => cases Step.firstFault? d.types _ ((claimsOf c d).map .settle) <;> rfl

/-! ### What the error says -/

variable {c : Config} {d : Definitions}

theorem cases_of_resolve_mem {q : Demand} (hq : Step.resolve q ∈ d.steps c) :
    (q.byMetric = false ∧ q.owner = c.baseTypeName ∧ q.name ∈ c.commonMetadata)
      ∨ q.byMetric = true ∧ ∃ m ∈ d.metrics, m.name = q.owner
        ∧ q.name ∈ m.metadata.map Reference.typeName := by
  simp only [Definitions.steps, List.mem_append, List.mem_map, List.mem_flatMap,
    List.mem_eraseDups] at hq
  rcases hq with (⟨name, hname, heq⟩ | ⟨m, hm, name, hname, heq⟩) | ⟨claim, _, heq⟩
  · cases heq
    exact .inl ⟨rfl, rfl, hname⟩
  · cases heq
    exact .inr ⟨rfl, m, hm, rfl, List.mem_map.mpr hname⟩
  · cases heq

theorem uses_of_resolve_mem {q : Demand} (hq : Step.resolve q ∈ d.steps c) :
    d.Uses c q.owner q.name := by
  rcases cases_of_resolve_mem hq with ⟨_, hbase⟩ | ⟨_, hmetric⟩
  · exact .inl hbase
  · exact .inr hmetric

theorem metric_of_settle_mem {metric name : String}
    (hclaim : Step.settle ⟨name, .metric metric⟩ ∈ d.steps c) :
    (∃ m ∈ d.metrics, m.name = metric) ∧ name = Text.pascalCase metric := by
  have hmem : ⟨name, .metric metric⟩ ∈ d.claims c := by
    rw [← claims_steps]
    exact List.mem_filterMap.mpr ⟨_, hclaim, rfl⟩
  obtain ⟨m, hm, rfl, rfl⟩ : ∃ m ∈ d.metrics, Text.pascalCase m.name = name ∧ m.name = metric := by
    simpa [Definitions.claims, Claim.fixed] using hmem
  exact ⟨⟨m, hm, rfl⟩, rfl⟩

/-- What some step gives stands before what a later one gives. -/
theorem pair_sublist_filterMap {α β : Type} {give : α → Option β} {front : List α} {item : α}
    {first second : β} (hfirst : first ∈ front.filterMap give) (hsecond : give item = some second)
    (back : List α) : [first, second].Sublist ((front ++ item :: back).filterMap give) := by
  rw [List.filterMap_append, List.filterMap_cons_some hsecond]
  exact (List.singleton_sublist.mpr hfirst).append (List.singleton_sublist.mpr List.mem_cons_self)

theorem names_steps_sublist : (Step.names (d.steps c)).Sublist (d.carriedNames c) := by
  rw [names_steps, resolvedNames_eq, Definitions.carriedNames]
  apply List.Sublist.append_left
  apply List.Sublist.flatMap_right
  exact fun m _ => keepFirstFrom_sublist id [] _

/-- The fault of a step is a fault of the definitions. -/
theorem Faulty.blames {front back : List Step} {step : Step}
    (hsteps : d.steps c = front ++ step :: back) (hfaulty : Faulty d front step e) :
    e.Blames d c := by
  have hmem : step ∈ d.steps c := hsteps ▸ List.mem_append_right _ List.mem_cons_self
  cases hfaulty with
  | @reserved q hmetric hclient =>
      rcases cases_of_resolve_mem hmem with ⟨hcommon, _⟩ | ⟨_, hrefers⟩
      · rw [hcommon] at hmetric
        cases hmetric
      · refine ⟨?_, hrefers⟩
        simpa [ClientField.isReserved] using hclient
  | undeclared _ hnone =>
      refine ⟨uses_of_resolve_mem hmem, fun t ht hname => ?_⟩
      exact List.find?_eq_none.mp hnone t ht (by simp [hname])
  | unknownKind _ hfirst hvalues hkind hunknown =>
      exact ⟨uses_of_resolve_mem hmem, _, hfirst, hvalues, hkind, hunknown⟩
  | @unionTaken q _ _ henum hholder hheld hne hcase =>
      obtain ⟨p, hp, rfl⟩ := List.mem_map.mp hholder
      have hpair : [p.name, q.name].Sublist (Step.names (front ++ .resolve q :: back)) :=
        (pair_sublist_filterMap hp rfl back).map Demand.name
      rw [← hsteps] at hpair
      exact .inl ⟨_, _, hpair.trans names_steps_sublist, hne, hheld, henum, hcase, rfl, rfl, rfl⟩
  | unnamed hname =>
      obtain ⟨hmetric, hpascal⟩ := metric_of_settle_mem hmem
      exact ⟨hmetric, hpascal, hname⟩
  | @nameTaken claim holder _ hholder hname =>
      have hpair : [holder, claim].Sublist (Step.claims (front ++ .settle claim :: back)) :=
        pair_sublist_filterMap hholder rfl back
      rw [← hsteps, claims_steps] at hpair
      exact .inr ⟨_, _, hpair, hname, rfl, rfl, rfl⟩

end Synthesis

/-- Under consistent settings a run fails exactly at the first fault. -/
theorem generate_eq_error_iff {d : Definitions} {c : Config} (hcheck : c.check = .ok ())
    (failure : Failure) :
    generate d c = .error failure
      ↔ ∃ e, failure = .resolution e ∧ Synthesis.FirstFault d (d.steps c) e := by
  simp only [← Synthesis.firstFault_iff, Synthesis.generate_eq_firstFault? c d hcheck]
  cases Synthesis.Step.firstFault? d.types [] (d.steps c) with
  | none => simp
  | some e => simp [eq_comm]

/-- **A run blames a real fault, and the first one.** Under consistent settings a run fails exactly
when a step is at fault, with the error of the first such step; and that error says of the
definitions what is true of them. -/
theorem fails_at_first_fault {d : Definitions} {c : Config} (hcheck : c.check = .ok ())
    (failure : Failure) :
    generate d c = .error failure
      ↔ ∃ e, failure = .resolution e ∧ Synthesis.FirstFault d (d.steps c) e ∧ e.Blames d c := by
  rw [generate_eq_error_iff hcheck]
  refine exists_congr fun e => and_congr_right fun _ => ?_
  constructor
  · intro hfirst
    have ⟨front, step, back, hsteps, _, hfaulty⟩ := hfirst
    exact ⟨hfirst, hfaulty.blames hsteps⟩
  · exact And.left

/-- Definitions of two enumerated types with one union name, and of a name that is not declared. -/
def Definitions.sampleClashing : Definitions where
  types := [.enumerated "result" ["Succeeded", "Failed"], .bare "awsRegion",
    .enumerated "runtime" ["node"], .enumerated "run_time" ["short"], .enumerated "Runtime" ["jvm"]]
  metrics := [.bare "lambda_invoke" "Invokes a function" [.requiredTo "runtime",
      .optionalTo "run_time", .requiredTo "runtime"],
    .bare "file_save" "Saves a file" [.requiredTo "result", .requiredTo "Runtime"],
    .bare "file_open" "Opens a file" [.requiredTo "size"]]

theorem fails_at_first_fault_sample :
    ∃ e, Failure.resolution (.typeNameCollision "Runtime" "metadata type \"runtime\""
        "metadata type \"Runtime\"") = .resolution e
      ∧ Synthesis.FirstFault .sampleClashing (Definitions.sampleClashing.steps .sample) e
      ∧ e.Blames .sampleClashing .sample :=
  (fails_at_first_fault (c := .sample) rfl _).mp rfl

end TelemetryTypes
