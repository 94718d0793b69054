import TelemetryTypes.Proofs.Synthesis.Acceptance

/-!
# What is wrong with a step

A run resolves names and then settles claims on type names, step by step. `Faulty` says without any
state what is wrong with a step behind the steps before it. What a run holds when it gets to a step
is known from `Settled`: names whose unions keep apart, and distinct claimed names. A step that does
not fail keeps it, and where it holds a step fails exactly for what is wrong with it.
-/

namespace TelemetryTypes

open MetadataType (first? isEnumerated)

namespace Synthesis

/-- A step of a run: a name is resolved, or a claim on a type name is settled. -/
inductive Step where
  | resolve (q : Demand)
  | settle (claim : Claim)

namespace Step

def demand? : Step → Option Demand
  | resolve q => some q
  | settle _ => none

def claim? : Step → Option Claim
  | resolve _ => none
  | settle claim => some claim

/-- The names that some steps resolve. -/
def names (steps : List Step) : List String := (steps.filterMap demand?).map Demand.name

/-- The claims that some steps settle. -/
def claims (steps : List Step) : List Claim := steps.filterMap claim?

end Step

/-- What is wrong with a step behind the steps before it. A name that a metric may not use is told
before all else about it, and a type name that is no identifier before one that is taken. -/
inductive Faulty (d : Definitions) (before : List Step) : Step → ResolutionError → Prop where
  | reserved {q : Demand} (hmetric : q.byMetric = true)
      (hclient : ClientField.isReserved q.name = true) :
      Faulty d before (.resolve q) (.reservedField q.owner q.name)
  | undeclared {q : Demand} (hlawful : q.Lawful) (hnone : d.metadataType? q.name = none) :
      Faulty d before (.resolve q) (.unknownMetadataType q.owner q.name)
  | unknownKind {q : Demand} {t : MetadataType} {kind : String} (hlawful : q.Lawful)
      (hfirst : d.metadataType? q.name = some t) (hvalues : t.allowedValues = none)
      (hkind : t.kind = some kind) (hunknown : kind ∉ ["string", "int", "double", "boolean"]) :
      Faulty d before (.resolve q) (.unknownKind q.name kind q.owner)
  | unionTaken {q : Demand} {holder : String} (hlawful : q.Lawful)
      (henum : isEnumerated d.types q.name = true) (hholder : holder ∈ Step.names before)
      (hheld : isEnumerated d.types holder = true) (hne : holder ≠ q.name)
      (hcase : Text.pascalCase holder = Text.pascalCase q.name) :
      Faulty d before (.resolve q) (.typeNameCollision (Text.pascalCase q.name)
        (Registry.claimant holder) (Registry.claimant q.name))
  | unnamed {metric name : String} (hname : Text.isIdentifier name = false) :
      Faulty d before (.settle ⟨name, .metric metric⟩) (.invalidTypeName metric name)
  | nameTaken {claim holder : Claim} (hlawful : claim.Lawful)
      (hholder : holder ∈ Step.claims before) (hname : holder.name = claim.name) :
      Faulty d before (.settle claim) (.typeNameCollision claim.name holder.claimant.description
        claim.claimant.description)

end Synthesis

/-! ### The fault of a step -/

/-- What makes a claim fail where some are held. -/
def Claim.fault? (held : List Claim) (claim : Claim) : Option ResolutionError :=
  match claim.checkName with
  | .error e => some e
  | .ok () => (held.find? (·.name == claim.name)).map fun holder =>
      .typeNameCollision claim.name holder.claimant.description claim.claimant.description

theorem Claim.checkName_eq_error_iff (claim : Claim) (e : ResolutionError) :
    claim.checkName = .error e ↔ ∃ metric, claim.claimant = .metric metric
      ∧ Text.isIdentifier claim.name = false ∧ e = .invalidTypeName metric claim.name := by
  unfold Claim.checkName
  cases claim.claimant with
  | metric m => cases Text.isIdentifier claim.name <;> simp [eq_comm]
  | _ => simp

theorem Claim.not_mem_of_fault?_eq_none {held : List Claim} {claim : Claim}
    (hfault : claim.fault? held = none) : claim.name ∉ held.map Claim.name := by
  unfold Claim.fault? at hfault
  split at hfault
  next => cases hfault
  next =>
    intro hmem
    obtain ⟨holder, hholder, hname⟩ := List.mem_map.mp hmem
    have hnone := List.find?_eq_none.mp (Option.map_eq_none_iff.mp hfault) holder hholder
    simp [hname] at hnone

theorem Demand.Lawful.fault?_eq {q : Demand} (hlawful : q.Lawful) (types : List MetadataType)
    (names : List String) : q.fault? types names = unresolved? types names q.name q.owner := by
  unfold Demand.fault?
  cases hmetric : q.byMetric with
  | true => simp [hlawful hmetric]
  | false => rfl

namespace Synthesis

variable {types : List MetadataType} {before steps : List Step} {step : Step}
  {e : ResolutionError}

namespace Step

/-- What makes a step fail in a run that took some steps before it. -/
def fault? (types : List MetadataType) (before : List Step) : Step → Option ResolutionError
  | resolve q => q.fault? types (names before)
  | settle claim => claim.fault? (claims before)

theorem names_concat_resolve (before : List Step) (q : Demand) :
    names (before ++ [.resolve q]) = names before ++ [q.name] := by
  simp [names, demand?]

theorem names_concat_settle (before : List Step) (claim : Claim) :
    names (before ++ [.settle claim]) = names before := by
  simp [names, demand?]

theorem claims_concat_resolve (before : List Step) (q : Demand) :
    claims (before ++ [.resolve q]) = claims before := by
  simp [claims, claim?]

theorem claims_concat_settle (before : List Step) (claim : Claim) :
    claims (before ++ [.settle claim]) = claims before ++ [claim] := by
  simp [claims, claim?]

end Step

/-! ### What a sound run holds -/

/-- What a run holds after steps of which none failed: unions of one name each, and distinct type
names. -/
structure Settled (types : List MetadataType) (before : List Step) : Prop where
  apart : Apart types (Step.names before)
  distinct : ((Step.claims before).map Claim.name).Nodup

namespace Settled

variable {d : Definitions}

theorem demand_fault?_eq_some_iff (hbefore : Settled d.types before) (q : Demand) :
    q.fault? d.types (Step.names before) = some e ↔ Faulty d before (.resolve q) e := by
  constructor
  · intro hfault
    cases hreserved : q.byMetric && ClientField.isReserved q.name with
    | true =>
        obtain ⟨hmetric, hclient⟩ := Bool.and_eq_true_iff.mp hreserved
        rw [Demand.fault?, if_pos hreserved] at hfault
        cases hfault
        exact .reserved hmetric hclient
    | false =>
        have hlawful : q.Lawful := fun hmetric => by simpa [hmetric] using hreserved
        rw [hlawful.fault?_eq] at hfault
        rcases cases_of_unresolved? hfault with
          ⟨hnone, rfl⟩ | ⟨t, word, hfirst, hvalues, hkind, hunknown, rfl⟩ | ⟨henum, hclash⟩
        · exact .undeclared hlawful hnone
        · exact .unknownKind hlawful hfirst hvalues hkind hunknown
        · obtain ⟨holder, hholder, hheld, hne, hcase, rfl⟩ :=
            (clash?_eq_some_iff hbefore.apart q.name e).mp hclash
          exact .unionTaken hlawful henum hholder hheld hne hcase
  · intro hfaulty
    cases hfaulty with
    | reserved hmetric hclient => simp [Demand.fault?, hmetric, hclient]
    | undeclared hlawful hnone => rw [hlawful.fault?_eq, unresolved?_of_undeclared hnone]
    | unknownKind hlawful hfirst hvalues hkind hunknown =>
        rw [hlawful.fault?_eq, unresolved?_of_unknownKind hfirst hvalues hkind hunknown]
    | unionTaken hlawful henum hholder hheld hne hcase =>
        rw [hlawful.fault?_eq, unresolved?_of_isEnumerated henum,
          clash?_eq_some_iff hbefore.apart]
        exact ⟨_, hholder, hheld, hne, hcase, rfl⟩

theorem claim_fault?_eq_some_iff (hbefore : Settled d.types before) (claim : Claim) :
    claim.fault? (Step.claims before) = some e ↔ Faulty d before (.settle claim) e := by
  constructor
  · intro hfault
    unfold Claim.fault? at hfault
    split at hfault
    next other hcheck =>
      cases hfault
      obtain ⟨metric, hmetric, hname, rfl⟩ := (Claim.checkName_eq_error_iff claim e).mp hcheck
      obtain ⟨name, claimant⟩ := claim
      obtain rfl : claimant = .metric metric := hmetric
      exact .unnamed hname
    next hcheck =>
      obtain ⟨holder, hfind, rfl⟩ := Option.map_eq_some_iff.mp hfault
      exact .nameTaken ((Claim.checkName_eq_ok_iff claim).mp hcheck)
        (List.mem_of_find?_eq_some hfind) (by simpa using List.find?_some hfind)
  · intro hfaulty
    cases hfaulty with
    | unnamed hname => simp [Claim.fault?, Claim.checkName, hname]
    | nameTaken hlawful hholder hname =>
        have hfind := find?_of_mem_of_nodup Claim.name hbefore.distinct hholder
        rw [hname] at hfind
        simp only [Claim.fault?, (Claim.checkName_eq_ok_iff claim).mpr hlawful, hfind,
          Option.map_some]

/-- Where nothing failed, a step fails exactly for what is wrong with it. -/
theorem fault?_eq_some_iff (hbefore : Settled d.types before) :
    step.fault? d.types before = some e ↔ Faulty d before step e := by
  cases step with
  | resolve q => exact demand_fault?_eq_some_iff hbefore q
  | settle claim => exact claim_fault?_eq_some_iff hbefore claim

theorem concat (hbefore : Settled types before) (hstep : step.fault? types before = none) :
    Settled types (before ++ [step]) := by
  cases step with
  | resolve q =>
      have hapart := ((Demand.fault?_eq_none_iff hbefore.apart q).mp hstep).2.2
      exact ⟨by rwa [Step.names_concat_resolve], by
        rw [Step.claims_concat_resolve]
        exact hbefore.distinct⟩
  | settle claim =>
      have hfree := Claim.not_mem_of_fault?_eq_none hstep
      refine ⟨by rw [Step.names_concat_settle]; exact hbefore.apart, ?_⟩
      rw [Step.claims_concat_settle, List.map_append, List.map_singleton, ← List.concat_eq_append,
        List.nodup_concat]
      exact ⟨hfree, hbefore.distinct⟩

end Settled

end Synthesis

end TelemetryTypes
