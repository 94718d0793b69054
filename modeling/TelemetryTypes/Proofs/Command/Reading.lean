import Mathlib.Data.List.Forall2
import TelemetryTypes.Command.Run

/-!
# What a run reads

Up to its unit a run only reads: it succeeds with what the files say and leaves them as they are,
and what was logged before has no part in that. The settings are those of the file that is named, or
the usual ones, and the documents are those of the files that are named, in order.
-/

namespace TelemetryTypes.Command

variable {α β : Type} {fs : FileSystem} {x : Running (StateM FileSystem) α} {P : α → Prop}

/-- What comes of a run behind a log, with the log and the files after it. -/
def onFiles (x : Running (StateM FileSystem) α) (logged : List LogEntry) (fs : FileSystem) :
    (Except RunError α × List LogEntry) × FileSystem :=
  ((ExceptT.run x).run logged).run fs

/-- The run succeeds with what `P` holds of, and with nothing else, and leaves the files as they are.
-/
def Finds (fs : FileSystem) (x : Running (StateM FileSystem) α) (P : α → Prop) : Prop :=
  ∃ result, (∀ a, result = .ok a ↔ P a)
    ∧ ∀ logged, ∃ after, onFiles x logged fs = ((result, after), fs)

/-! ### Steps -/

theorem onFiles_bind_ok {next : α → Running (StateM FileSystem) β} {a : α}
    {logged after : List LogEntry} {fs' : FileSystem}
    (h : onFiles x logged fs = ((.ok a, after), fs')) :
    onFiles (x >>= next) logged fs = onFiles (next a) after fs' := by
  simp only [onFiles, ExceptT.run_bind, StateT.run_bind] at h ⊢
  rw [h]
  rfl

theorem onFiles_bind_error {next : α → Running (StateM FileSystem) β} {e : RunError}
    {logged after : List LogEntry} {fs' : FileSystem}
    (h : onFiles x logged fs = ((.error e, after), fs')) :
    onFiles (x >>= next) logged fs = ((.error e, after), fs') := by
  simp only [onFiles, ExceptT.run_bind, StateT.run_bind] at h ⊢
  rw [h]
  rfl

namespace Finds

theorem pure (a : α) : Finds fs (Pure.pure a) (a = ·) :=
  ⟨.ok a, fun _ => by simp, fun logged => ⟨logged, rfl⟩⟩

theorem throw (e : RunError) : Finds fs (MonadExcept.throw e : Running (StateM FileSystem) α)
    (fun _ => False) :=
  ⟨.error e, fun _ => by simp, fun logged => ⟨logged, rfl⟩⟩

theorem log (entries : List LogEntry) : Finds fs (Command.log entries) (() = ·) :=
  ⟨.ok (), fun _ => by simp, fun logged => ⟨logged ++ entries, rfl⟩⟩

theorem readFile (fs : FileSystem) (path : String) :
    Finds fs (Command.readFile path) (fs.read path = ·) :=
  ⟨.ok (fs.read path), fun _ => by simp, fun logged => ⟨logged, rfl⟩⟩

theorem bind {next : α → Running (StateM FileSystem) β} {Q : α → β → Prop} (h : Finds fs x P)
    (hnext : ∀ a, P a → Finds fs (next a) (Q a)) :
    Finds fs (x >>= next) (fun b => ∃ a, P a ∧ Q a b) := by
  obtain ⟨result, hresult, hrun⟩ := h
  cases result with
  | error e =>
      have hnone : ∀ a, ¬P a := fun a ha => by cases (hresult a).mpr ha
      refine ⟨.error e, fun b => by simp [hnone], fun logged => ?_⟩
      obtain ⟨after, hafter⟩ := hrun logged
      exact ⟨after, onFiles_bind_error hafter⟩
  | ok a =>
      have hP : ∀ a', P a' ↔ a = a' := fun a' => by rw [← hresult, Except.ok.injEq]
      obtain ⟨next', hnext', hrun'⟩ := hnext a ((hP a).mpr rfl)
      refine ⟨next', fun b => by simp [hP, hnext'], fun logged => ?_⟩
      obtain ⟨after, hafter⟩ := hrun logged
      rw [onFiles_bind_ok hafter]
      exact hrun' after

/-- Behind a step that can only come to one thing, the run goes on with that. -/
theorem bind_eq {next : α → Running (StateM FileSystem) β} {a : α} {Q : β → Prop}
    (h : Finds fs x (a = ·)) (hnext : Finds fs (next a) Q) : Finds fs (x >>= next) Q := by
  obtain ⟨result, hresult, hrun⟩ := h
  obtain ⟨result', hresult', hrun'⟩ := hnext
  obtain rfl : result = .ok a := (hresult a).mpr rfl
  refine ⟨result', hresult', fun logged => ?_⟩
  obtain ⟨after, hafter⟩ := hrun logged
  rw [onFiles_bind_ok hafter]
  exact hrun' after

theorem congr {Q : α → Prop} (h : Finds fs x P) (hiff : ∀ a, P a ↔ Q a) : Finds fs x Q := by
  obtain ⟨result, hresult, hrun⟩ := h
  exact ⟨result, fun a => (hresult a).trans (hiff a), hrun⟩

theorem mapM {next : α → Running (StateM FileSystem) β} {Q : α → β → Prop}
    (h : ∀ a, Finds fs (next a) (Q a)) (as : List α) :
    Finds fs (as.mapM next) (List.Forall₂ Q as) := by
  induction as with
  | nil =>
      rw [List.mapM_nil]
      exact (pure []).congr fun bs => by simp [eq_comm]
  | cons a rest ih =>
      rw [List.mapM_cons]
      refine ((h a).bind fun b _ => ih.bind fun bs _ => pure (b :: bs)).congr fun bs => ?_
      simp [List.forall₂_cons_left_iff, eq_comm]

end Finds

/-! ### Settings and documents -/

/-- The settings of a run: those of the file that is named or the usual ones, without the bundled
definitions if the run is to do without. -/
def HasSettings (fs : FileSystem) (s : Sources) (c : Config) : Prop :=
  ∃ named, c = (if s.noDefaults then { named with includeDefaults := false } else named)
    ∧ match s.config with
      | none => named = .default
      | some path => ∃ text, fs.read path = .ok text ∧ Config.ofText text = .ok named

def HasDocument (fs : FileSystem) (path : String) (d : Definitions) : Prop :=
  ∃ text, fs.read path = .ok text ∧ Definitions.ofText text path = .ok d

/-- What a run is given by the files: its documents, in order, and its settings. -/
def Loaded (fs : FileSystem) (s : Sources) (documents : List Definitions) (c : Config) : Prop :=
  List.Forall₂ (HasDocument fs) s.inputs documents ∧ HasSettings fs s c

theorem finds_loadConfig (fs : FileSystem) (path : String) :
    Finds fs (loadConfig path)
      fun c => ∃ text, fs.read path = .ok text ∧ Config.ofText text = .ok c := by
  have hread := Finds.readFile fs path
  rw [loadConfig]
  cases hfile : fs.read path with
  | error e => exact (hfile ▸ hread).bind_eq ((Finds.throw _).congr fun c => by simp)
  | ok text =>
      refine (hfile ▸ hread).bind_eq ?_
      cases hconfig : Config.ofText text with
      | error reason =>
          simp only [hconfig]
          exact (Finds.throw _).congr fun c => by simp [hconfig]
      | ok c =>
          simp only [hconfig]
          exact ((Finds.log _).bind_eq (Finds.pure c)).congr fun c => by simp [hconfig]

theorem finds_settingsOf (fs : FileSystem) (s : Sources) :
    Finds fs (settingsOf s) (HasSettings fs s) := by
  unfold settingsOf
  cases hconfig : s.config with
  | none =>
      simp only [pure_bind]
      refine (Finds.pure _).congr fun c => ?_
      simp only [HasSettings, hconfig, exists_eq_right, eq_comm]
  | some path =>
      refine ((finds_loadConfig fs path).bind fun c _ => Finds.pure _).congr fun c => ?_
      simp only [HasSettings, hconfig, and_comm, eq_comm]

theorem finds_loadDocument (fs : FileSystem) (path : String) :
    Finds fs (loadDocument path) (HasDocument fs path) := by
  have hread := Finds.readFile fs path
  rw [loadDocument]
  cases hfile : fs.read path with
  | error e =>
      exact (hfile ▸ hread).bind_eq ((Finds.throw _).congr fun d => by simp [HasDocument, hfile])
  | ok text =>
      refine (hfile ▸ hread).bind_eq ?_
      cases hdocument : Definitions.ofText text path with
      | error e =>
          simp only [hdocument]
          exact (Finds.throw _).congr fun d => by simp [HasDocument, hfile, hdocument]
      | ok d =>
          simp only [hdocument]
          exact ((Finds.log _).bind_eq (Finds.pure d)).congr fun d => by
            simp [HasDocument, hfile, hdocument]

theorem finds_load (fs : FileSystem) (s : Sources) :
    Finds fs (load s) fun (documents, c) => Loaded fs s documents c := by
  refine ((finds_settingsOf fs s).bind fun c _ =>
    (Finds.mapM (finds_loadDocument fs) s.inputs).bind fun documents _ =>
      Finds.pure (documents, c)).congr fun (documents, c) => ?_
  simp [Loaded, and_comm]

theorem finds_makeUnit (fs : FileSystem) (attempt : String) (documents : List Definitions)
    (c : Config) :
    Finds fs (makeUnit attempt documents c) (generateDocuments documents c = .ok ·) := by
  refine (Finds.log _).bind_eq ?_
  cases hunit : generateDocuments documents c with
  | error f => exact (Finds.throw _).congr fun u => by simp
  | ok u => exact (Finds.pure u).congr fun u => by simp

/-- The unit that a run makes of what it reads. -/
theorem finds_loadUnit (fs : FileSystem) (attempt : String) (s : Sources) :
    Finds fs (loadUnit attempt s)
      fun u => ∃ documents c, Loaded fs s documents c ∧ generateDocuments documents c = .ok u := by
  refine ((finds_load fs s).bind (Q := fun (documents, c) u => generateDocuments documents c = .ok u)
    fun (documents, c) _ => finds_makeUnit fs attempt documents c).congr fun u => ?_
  exact Prod.exists

end TelemetryTypes.Command
