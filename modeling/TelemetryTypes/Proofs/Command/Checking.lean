import TelemetryTypes.Proofs.Command.Generating
import TelemetryTypes.Proofs.Json.Printing
import TelemetryTypes.Proofs.Lexical.Contents
import TelemetryTypes.Proofs.Synthesis.Alignment

/-!
# What a check tells

Checking and generating read the same and make the same unit of it, so the one fails before its end
exactly if the other does, and by the same fault. What they do with the unit goes two ways, by an
object that is printed and by a source that is written; both texts are asked for what they hold, and
hold the same.
-/

namespace TelemetryTypes

namespace Command

variable {α β : Type}

/-! ### Errors -/

namespace RunError

/-- An error, whatever was attempted. -/
def underlying : RunError → RunError
  | generation _ f => generation "" f
  | e => e

/-- An error of what a run is given, and not of its output. -/
def OfInput (e : RunError) : Prop := ∀ path reason, e ≠ output path reason

end RunError

/-- The error that a run ends with, if it fails. -/
def failure? (fs : FileSystem) (a : Action) : Option RunError :=
  match (onFiles (perform a) [startEntry] fs).1.1 with
  | .ok _ => none
  | .error e => some e

/-- A run fails: it exits with one, prints nothing, logs its error last and leaves the files as they
are. -/
structure Fails (fs : FileSystem) (a : Action) (e : RunError) : Prop where
  failure : failure? fs a = some e
  outcome : ∃ logged, runOn fs a = (⟨1, "", logged ++ [⟨.error, e.message, []⟩]⟩, fs)

/-- A run that generates gets as far as writing its output: it fails at that or not at all. -/
def ReachesOutput (fs : FileSystem) (s : Sources) (output : String) : Prop :=
  ∀ e ∈ failure? fs (.generate s output), ∃ reason, e = .output output reason

/-! ### What a run can fail at -/

/-- Whatever the files are, a run ends with errors only of which `P` holds. -/
def Throws (P : RunError → Prop) (x : Running (StateM FileSystem) α) : Prop :=
  ∀ (fs : FileSystem) (logged : List LogEntry) (e : RunError),
    (onFiles x logged fs).1.1 = .error e → P e

namespace Throws

variable {P : RunError → Prop} {x : Running (StateM FileSystem) α}

theorem pure (a : α) : Throws P (Pure.pure a) := fun _ _ _ h => nomatch h

theorem throw {e : RunError} (h : P e) :
    Throws P (MonadExcept.throw e : Running (StateM FileSystem) α) := by
  intro fs logged e' heq
  obtain rfl : e = e' := Except.error.inj heq
  exact h

theorem log (entries : List LogEntry) : Throws P (Command.log entries) := fun _ _ _ h => nomatch h

theorem readFile (path : String) : Throws P (Command.readFile path) := fun _ _ _ h => nomatch h

theorem replaceFile (path text : String) : Throws P (Command.replaceFile path text) := by
  intro fs logged e h
  rw [Command.replaceFile, onFiles_liftM] at h
  cases h

theorem bind {next : α → Running (StateM FileSystem) β} (h : Throws P x)
    (hnext : ∀ a, Throws P (next a)) : Throws P (x >>= next) := by
  intro fs logged e heq
  rcases hx : onFiles x logged fs with ⟨⟨result, between⟩, fs'⟩
  cases result with
  | error e' =>
      rw [onFiles_bind_error hx] at heq
      obtain rfl : e' = e := Except.error.inj heq
      exact h fs logged e' (by rw [hx])
  | ok a =>
      rw [onFiles_bind_ok hx] at heq
      exact hnext a fs' between e heq

theorem mapM {next : α → Running (StateM FileSystem) β} (h : ∀ a, Throws P (next a))
    (as : List α) : Throws P (as.mapM next) := by
  induction as with
  | nil =>
      rw [List.mapM_nil]
      exact pure []
  | cons a rest ih =>
      rw [List.mapM_cons]
      exact (h a).bind fun b => ih.bind fun bs => pure (b :: bs)

end Throws

open RunError (OfInput)

theorem throws_loadConfig (path : String) : Throws OfInput (loadConfig path) := by
  refine (Throws.readFile path).bind fun content => ?_
  cases content with
  | error e => exact .throw fun _ _ h => nomatch h
  | ok text =>
      dsimp only
      split
      · exact .throw fun _ _ h => nomatch h
      · exact (Throws.log _).bind fun _ => .pure _

theorem throws_settingsOf (s : Sources) : Throws OfInput (settingsOf s) := by
  unfold settingsOf
  cases s.config with
  | none =>
      simp only [pure_bind]
      exact .pure _
  | some path => exact (throws_loadConfig path).bind fun _ => .pure _

theorem throws_loadDocument (path : String) : Throws OfInput (loadDocument path) := by
  refine (Throws.readFile path).bind fun content => ?_
  cases content with
  | error e => exact .throw fun _ _ h => nomatch h
  | ok text =>
      dsimp only
      split
      · exact .throw fun _ _ h => nomatch h
      · exact (Throws.log _).bind fun _ => .pure _

/-- Reading does not fail at the output. -/
theorem throws_load (s : Sources) : Throws OfInput (load s) :=
  (throws_settingsOf s).bind fun _ =>
    (Throws.mapM throws_loadDocument s.inputs).bind fun _ => .pure _

theorem throws_writeSource (output source : String) :
    Throws (fun e => ∃ reason, e = .output output reason) (writeSource output source) := by
  refine (Throws.replaceFile output source).bind fun result => ?_
  cases result with
  | error e => exact .throw ⟨e, rfl⟩
  | ok _ => exact .log _

/-! ### Up to the unit -/

theorem onFiles_log (entries logged : List LogEntry) (fs : FileSystem) :
    onFiles (log entries) logged fs = ((.ok (), logged ++ entries), fs) := rfl

theorem onFiles_makeUnit (attempt : String) (documents : List Definitions) (c : Config)
    (logged : List LogEntry) (fs : FileSystem) :
    onFiles (makeUnit attempt documents c) logged fs
      = (((generateDocuments documents c).mapError (.generation attempt),
        logged ++ generationEntries documents c), fs) := by
  rw [makeUnit, onFiles_bind_ok (onFiles_log _ _ _)]
  cases generateDocuments documents c <;> rfl

/-- Whatever a unit is wanted for, a run fails to make it by the same fault, or makes the same. -/
theorem onFiles_loadUnit_cases (fs : FileSystem) (s : Sources) (logged : List LogEntry) :
    (∃ e, ∀ attempt, ∃ e' after, OfInput e' ∧ e'.underlying = e
        ∧ onFiles (loadUnit attempt s) logged fs = ((.error e', after), fs))
      ∨ ∃ documents c u after, Loaded fs s documents c ∧ generateDocuments documents c = .ok u
        ∧ ∀ attempt, onFiles (loadUnit attempt s) logged fs = ((.ok u, after), fs) := by
  obtain ⟨result, hresult, hrun⟩ := finds_load fs s
  obtain ⟨after, hafter⟩ := hrun logged
  cases result with
  | error e =>
      refine .inl ⟨e.underlying, fun attempt => ⟨e, after, ?_, rfl, onFiles_bind_error hafter⟩⟩
      exact throws_load s fs logged e (by rw [hafter])
  | ok loaded =>
      obtain ⟨documents, c⟩ := loaded
      have hloaded : Loaded fs s documents c := (hresult (documents, c)).mp rfl
      have hmake (attempt : String) : onFiles (loadUnit attempt s) logged fs
          = (((generateDocuments documents c).mapError (.generation attempt),
            after ++ generationEntries documents c), fs) := by
        rw [loadUnit, onFiles_bind_ok hafter]
        exact onFiles_makeUnit attempt documents c after fs
      generalize after ++ generationEntries documents c = after' at hmake
      cases hunit : generateDocuments documents c with
      | error f =>
          rw [hunit] at hmake
          have hinput (attempt : String) : OfInput (.generation attempt f) :=
            fun _ _ h => nomatch h
          exact .inl ⟨.generation "" f, fun attempt =>
            ⟨.generation attempt f, after', hinput attempt, rfl, hmake attempt⟩⟩
      | ok u =>
          rw [hunit] at hmake
          exact .inr ⟨documents, c, u, after', hloaded, hunit, hmake⟩

end Command

open Lexical (definitionsIn? metricCount unionCount)

/-! ### What is printed -/

/-- The entries of the object of a record. -/
def RuntimeRecord.fields (r : RuntimeRecord) : List (String × Json) :=
  [("unit", .string r.unit), ("passive", .bool r.passive),
    ("trackPerformance", .bool r.trackPerformance),
    ("requiredMetadata", .array (r.requiredMetadata.map .string))]

/-- An object holds the records of a table, each under its name, and nothing else. -/
structure Json.HoldsRecords (v : Json) (t : RuntimeTable) : Prop where
  names_nodup : (t.entries.map Prod.fst).Nodup
  names : ∃ entries, v = .object entries ∧ (entries.map Prod.fst).Perm (t.entries.map Prod.fst)
  records : ∀ entry ∈ t.entries, ∃ fields,
    v.get? entry.1 = some (.object fields) ∧ fields.Perm entry.2.fields

theorem RuntimeRecord.fields_nodup (r : RuntimeRecord) : (r.fields.map Prod.fst).Nodup := by
  have hkeys : r.fields.map Prod.fst
      = ["unit", "passive", "trackPerformance", "requiredMetadata"] := rfl
  rw [hkeys]
  decide

theorem RuntimeRecord.legible_toJson (r : RuntimeRecord) (depth : Nat) :
    Json.Legible (depth + 2) r.toJson := by
  have hvalues : ∀ e ∈ r.fields, Json.Legible (depth + 1) e.2 := by
    simp only [fields, List.forall_mem_cons]
    refine ⟨.string _, .bool _, .bool _, .array fun item hitem => ?_, List.forall_mem_nil _⟩
    obtain ⟨name, _, rfl⟩ := List.mem_map.mp hitem
    exact .string name
  exact Json.legible_ofEntries r.fields_nodup hvalues

namespace RuntimeTable

variable {t : RuntimeTable}

theorem legible_toJson (hnodup : (t.entries.map Prod.fst).Nodup) (depth : Nat) :
    Json.Legible (depth + 3) t.toJson := by
  rw [← map_fst_toJson] at hnodup
  refine Json.legible_ofEntries hnodup fun e he => ?_
  obtain ⟨entry, _, rfl⟩ := List.mem_map.mp he
  exact entry.2.legible_toJson depth

theorem holdsRecords_toJson (hnodup : (t.entries.map Prod.fst).Nodup) :
    t.toJson.HoldsRecords t where
  names_nodup := hnodup
  names := by
    obtain ⟨entries, hentries, hperm⟩ := exists_toJson_eq hnodup
    exact ⟨entries, hentries, map_fst_toJson t ▸ hperm.map Prod.fst⟩
  records := by
    intro entry hentry
    obtain ⟨fields, hfields, hperm⟩ := Json.exists_ofEntries_eq entry.2.fields_nodup
    refine ⟨fields, ?_, hperm⟩
    rw [get?_toJson hnodup hentry, ← hfields]
    rfl

end RuntimeTable

namespace Command

/-! ### Checking and generating -/

variable {fs : FileSystem} {s : Sources} {json : Bool} {output : String}

/-- What is printed of a check and the source that is written agree: they have the same records for
the metrics of the documents, or the numbers that are printed are those of the source. -/
structure Agrees (documents : List Definitions) (c : Config) (json : Bool)
    (printed source : String) : Prop where
  table : json = true → ∃ t v, definitionsIn? source = some t ∧ Json.parse printed = .ok v
    ∧ t.entries.map Prod.fst = (Definitions.merge (withBundled documents c)).metrics.map Metric.name
    ∧ v.HoldsRecords t
  counts : json = false →
    printed = s!"OK: {metricCount source} metric(s), {unionCount source} union(s)\n"

theorem report_agrees {documents : List Definitions} {c : Config} {u : SourceUnit}
    (h : generateDocuments documents c = .ok u) (json : Bool) :
    Agrees documents c json (report u json) u.render := by
  obtain ⟨hacceptable, rfl⟩ := (generate_eq_ok_iff_acceptable _ c u).mp h
  have hsettings := hacceptable.settings
  have hnodup := hacceptable.record_names_nodup
  refine ⟨fun hjson => ?_, fun hjson => ?_⟩
  · have htable (d : Definitions) : (Synthesis.unitOf c d).runtimeTable?
        = some (.ofMetrics (Synthesis.metricsOf c d)) := Synthesis.runtimeTable?_assemble c _ _ _
    have hdepth : Json.maxNesting = 124 + 3 := rfl
    refine ⟨_, _, Synthesis.definitionsIn?_unitOf hsettings _, ?_, Synthesis.map_fst_entries c _,
      RuntimeTable.holdsRecords_toJson hnodup⟩
    rw [report, if_pos hjson, htable]
    exact Json.parse_pretty (hdepth ▸ RuntimeTable.legible_toJson hnodup 124)
  · rw [Synthesis.metricCount_unitOf hsettings, Synthesis.unionCount_unitOf hsettings, hjson]
    rfl

/-- What a check tells of generating from the same sources. -/
structure Predicts (fs : FileSystem) (s : Sources) (json : Bool) (output : String) : Prop where
  unchanged : (runOn fs (.check s json)).2 = fs
  passes_iff : (runOn fs (.check s json)).1.exitCode = 0 ↔ ReachesOutput fs s output
  fails : (runOn fs (.check s json)).1.exitCode ≠ 0 → ∃ e e', Fails fs (.check s json) e
    ∧ Fails fs (.generate s output) e' ∧ e.underlying = e'.underlying
  agrees : (runOn fs (.check s json)).1.exitCode = 0 →
    (runOn fs (.generate s output)).1.exitCode = 0 → ∃ documents c source, Loaded fs s documents c
      ∧ (runOn fs (.generate s output)).2.read output = .ok source
      ∧ Agrees documents c json (runOn fs (.check s json)).1.printed source

theorem fails_of_error {a : Action} {e : RunError} {logged : List LogEntry}
    (h : onFiles (perform a) [startEntry] fs = ((.error e, logged), fs)) : Fails fs a e where
  failure := by rw [failure?, h]
  outcome := ⟨logged, runOn_of_error h⟩

theorem Fails.exitCode {a : Action} {e : RunError} (h : Fails fs a e) :
    (runOn fs a).1.exitCode = 1 := by
  obtain ⟨logged, hrun⟩ := h.outcome
  rw [hrun]

theorem perform_check (s : Sources) (json : Bool) :
    perform (.check s json) = loadUnit "definitions do not resolve" s >>= fun u =>
      (pure (report u json) : Running (StateM FileSystem) _) := rfl

theorem perform_generate (s : Sources) (output : String) :
    perform (.generate s output) = loadUnit "failed to generate type definitions" s >>= fun u =>
      writeSource output u.render >>= fun _ => (pure "" : Running (StateM FileSystem) _) := rfl

/-- Of what fails before the output, a check and a run that generates tell the same. -/
theorem predicts_of_error {e : RunError}
    (h : ∀ attempt, ∃ e' after, RunError.OfInput e' ∧ e'.underlying = e
      ∧ onFiles (loadUnit attempt s) [startEntry] fs = ((.error e', after), fs)) :
    Predicts fs s json output := by
  obtain ⟨e₁, after₁, -, heq₁, hload₁⟩ := h "definitions do not resolve"
  obtain ⟨e₂, after₂, hinput, heq₂, hload₂⟩ := h "failed to generate type definitions"
  have hcheck : Fails fs (.check s json) e₁ :=
    fails_of_error (perform_check s json ▸ onFiles_bind_error hload₁)
  have hgenerate : Fails fs (.generate s output) e₂ :=
    fails_of_error (perform_generate s output ▸ onFiles_bind_error hload₂)
  have hexit := hcheck.exitCode
  refine ⟨?_, ⟨fun hzero => ?_, fun hreaches => ?_⟩, fun _ => ?_, fun hzero => ?_⟩
  · obtain ⟨logged, hrun⟩ := hcheck.outcome
    rw [hrun]
  · exact absurd (hexit.symm.trans hzero) (by decide)
  · obtain ⟨reason, houtput⟩ := hreaches e₂ hgenerate.failure
    exact absurd houtput (hinput output reason)
  · exact ⟨e₁, e₂, hcheck, hgenerate, heq₁.trans heq₂.symm⟩
  · exact absurd (hexit.symm.trans hzero) (by decide)

theorem predicts_of_unit {documents : List Definitions} {c : Config} {u : SourceUnit}
    {after : List LogEntry} (hloaded : Loaded fs s documents c)
    (hunit : generateDocuments documents c = .ok u)
    (hload : ∀ attempt, onFiles (loadUnit attempt s) [startEntry] fs = ((.ok u, after), fs)) :
    Predicts fs s json output := by
  have hcheck : runOn fs (.check s json) = (⟨0, report u json, after⟩, fs) := by
    refine runOn_of_ok ?_
    rw [perform_check, onFiles_bind_ok (hload _)]
    rfl
  have hgenerate : onFiles (perform (.generate s output)) [startEntry] fs
      = onFiles (writeSource output u.render >>= fun _ => (pure "" : Running (StateM FileSystem) _))
        after fs := by
    rw [perform_generate, onFiles_bind_ok (hload _)]
  refine ⟨by rw [hcheck], ⟨fun _ e he => ?_, fun _ => by rw [hcheck]⟩, fun hnonzero => ?_,
    fun _ hzero => ?_⟩
  · have hthrows : Throws (fun e => ∃ reason, e = .output output reason)
        (writeSource output u.render >>= fun _ => (pure "" : Running (StateM FileSystem) _)) :=
      (throws_writeSource output u.render).bind fun _ => .pure ""
    rw [failure?, hgenerate] at he
    split at he
    · cases he
    · rename_i e' herror
      obtain rfl : e' = e := Option.some.inj he
      exact hthrows fs after e' herror
  · exact absurd (by rw [hcheck]) hnonzero
  · obtain ⟨-, e, hwrite⟩ | ⟨logged, place, hplace, hwrite⟩ :=
      onFiles_writeSource_cases fs after output u.render
    · rw [onFiles_bind_error hwrite] at hgenerate
      exact absurd ((fails_of_error hgenerate).exitCode.symm.trans hzero) (by decide)
    · rw [onFiles_bind_ok hwrite] at hgenerate
      have hread := (@FileSystem.replaced_put fs output u.render place hplace).read
      refine ⟨documents, c, u.render, hloaded, by rw [runOn_of_ok hgenerate]; exact hread, ?_⟩
      rw [hcheck]
      exact report_agrees hunit json

/-- **A check predicts what generating does.** Whatever the files are and whatever a run is told: a
check leaves every file as it is, and passes exactly if a run that generates from the same gets as
far as its output. If it does not pass, both exit with one by the same fault. If both pass, the
object that is printed has an entry for every metric and no other, with the four fields that the
text holds for the metric; or else the numbers that are printed are those of the interfaces of
metrics and of the unions in the text. -/
theorem check_predicts_generate (fs : FileSystem) (s : Sources) (json : Bool) (output : String) :
    Predicts fs s json output := by
  obtain ⟨e, hfails⟩ | ⟨documents, c, u, after, hloaded, hunit, hload⟩ :=
    onFiles_loadUnit_cases fs s [startEntry]
  · exact predicts_of_error hfails
  · exact predicts_of_unit hloaded hunit hload

end Command

end TelemetryTypes
