import TelemetryTypes.Proofs.Command.Reading
import TelemetryTypes.Proofs.Files.Replacing
import TelemetryTypes.Proofs.Json.Printing

/-!
# All or nothing

A run that generates reads first and writes last. Whatever it fails at, reading, making the unit or
replacing its output, the files are as they were; and if it does not fail, they differ from what they
were in its output alone, which holds the source of what was read.
-/

namespace TelemetryTypes

/-- The file that a path leads to holds a text, and all else is as before. -/
structure FileSystem.Replaced (fs after : FileSystem) (path text : String) : Prop where
  written : ∃ place, fs.destination path = .ok place
    ∧ after.entry? place = some (.file text.toUTF8 true)
    ∧ ∀ other, other ≠ place → after.entry? other = fs.entry? other
  read : after.read path = .ok text
  workingDirectory : after.workingDirectory = fs.workingDirectory
  capacity : after.capacity = fs.capacity

theorem FileSystem.replaced_put {fs : FileSystem} {path text : String} {place : Place}
    (h : fs.destination path = .ok place) :
    fs.Replaced (fs.put place (.file text.toUTF8 true)) path text where
  written := ⟨place, h, entry?_put_self, fun _ hother => entry?_put_of_ne hother⟩
  read := read_put h
  workingDirectory := rfl
  capacity := rfl

theorem compile_eq_ok_iff {documents : List Definitions} {c : Config} {source : String} :
    compile documents c = .ok source
      ↔ ∃ u, generateDocuments documents c = .ok u ∧ u.render = source := by
  rw [compile]
  cases generateDocuments documents c <;> simp

namespace Command

/-- A run on files that are a value: what it leaves, and the files after it. -/
def runOn (fs : FileSystem) (a : Action) : Outcome × FileSystem :=
  (run a : StateM FileSystem Outcome).run fs

/-! ### Steps -/

variable {fs after : FileSystem} {a : Action} {logged : List LogEntry}

theorem runOn_of_ok {printed : String}
    (h : onFiles (perform a) [startEntry] fs = ((.ok printed, logged), after)) :
    runOn fs a = (⟨0, printed, logged⟩, after) := by
  unfold onFiles at h
  simp only [runOn, run, StateT.run_bind, h]
  rfl

theorem runOn_of_error {e : RunError}
    (h : onFiles (perform a) [startEntry] fs = ((.error e, logged), after)) :
    runOn fs a = (⟨1, "", logged ++ [⟨.error, e.message, []⟩]⟩, after) := by
  unfold onFiles at h
  simp only [runOn, run, StateT.run_bind, h]
  rfl

theorem onFiles_liftM {α : Type} (x : StateM FileSystem α) (logged : List LogEntry)
    (fs : FileSystem) :
    onFiles (liftM x) logged fs = ((.ok (x.run fs).1, logged), (x.run fs).2) := rfl

theorem onFiles_replaceFile {path text : String} {result : Except ReplaceError Unit}
    (h : (FileStore.replace path text : StateM FileSystem _).run fs = (result, after)) :
    onFiles (replaceFile path text) logged fs = ((.ok result, logged), after) := by
  rw [replaceFile, onFiles_liftM, h]

/-! ### Generating -/

theorem onFiles_writeSource_cases (fs : FileSystem) (logged : List LogEntry)
    (output source : String) :
    (¬fs.Replaceable output source
        ∧ ∃ e, onFiles (writeSource output source) logged fs = ((.error e, logged), fs))
      ∨ ∃ logged' place, fs.destination output = .ok place
        ∧ onFiles (writeSource output source) logged fs
          = ((.ok (), logged'), fs.put place (.file source.toUTF8 true)) := by
  rw [writeSource]
  obtain ⟨hcannot, e, hreplace⟩ | ⟨-, place, hplace, hreplace⟩ := fs.replace_cases output source
  · rw [onFiles_bind_ok (onFiles_replaceFile hreplace)]
    exact .inl ⟨hcannot, .output output e, rfl⟩
  · rw [onFiles_bind_ok (onFiles_replaceFile hreplace)]
    exact .inr ⟨_, place, hplace, rfl⟩

/-- A run that generates leaves the files as they were, as it could not read or make or replace what
it was told to; or it has replaced its output by the source of what it read. -/
theorem runOn_generate_cases (fs : FileSystem) (s : Sources) (output : String) :
    (∃ outcome, runOn fs (.generate s output) = (outcome, fs) ∧ outcome.exitCode = 1
        ∧ ∀ documents c source, Loaded fs s documents c → compile documents c = .ok source →
            ¬fs.Replaceable output source)
      ∨ ∃ outcome documents c source place, Loaded fs s documents c
        ∧ compile documents c = .ok source ∧ fs.destination output = .ok place
        ∧ runOn fs (.generate s output) = (outcome, fs.put place (.file source.toUTF8 true))
        ∧ outcome.exitCode = 0 := by
  have hperform : perform (.generate s output)
      = loadUnit "failed to generate type definitions" s >>= fun u =>
          writeSource output u.render >>= fun _ => (pure "" : Running (StateM FileSystem) _) := rfl
  obtain ⟨result, hresult, hrun⟩ := finds_loadUnit fs "failed to generate type definitions" s
  obtain ⟨logged, hlogged⟩ := hrun [startEntry]
  cases result with
  | error e =>
      have hfailed := hperform ▸ onFiles_bind_error hlogged
      refine .inl ⟨_, runOn_of_error hfailed, rfl, fun documents c source hloaded hcompile => ?_⟩
      obtain ⟨u, hunit, rfl⟩ := compile_eq_ok_iff.mp hcompile
      cases (hresult u).mpr ⟨documents, c, hloaded, hunit⟩
  | ok u =>
      obtain ⟨hcannot, e, hwrite⟩ | ⟨logged', place, hplace, hwrite⟩ :=
        onFiles_writeSource_cases fs logged output u.render
      · have hfailed : onFiles (perform (.generate s output)) [startEntry] fs
            = ((.error e, logged), fs) := by
          rw [hperform, onFiles_bind_ok hlogged, onFiles_bind_error hwrite]
        refine .inl ⟨_, runOn_of_error hfailed, rfl, fun documents c source hloaded hcompile => ?_⟩
        obtain ⟨u', hunit, rfl⟩ := compile_eq_ok_iff.mp hcompile
        obtain rfl := Except.ok.inj ((hresult u').mpr ⟨documents, c, hloaded, hunit⟩)
        exact hcannot
      · have hdone : onFiles (perform (.generate s output)) [startEntry] fs
            = ((.ok "", logged'), fs.put place (.file u.render.toUTF8 true)) := by
          rw [hperform, onFiles_bind_ok hlogged, onFiles_bind_ok hwrite]
          rfl
        obtain ⟨documents, c, hloaded, hunit⟩ := (hresult u).mp rfl
        exact .inr ⟨_, documents, c, u.render, place, hloaded,
          compile_eq_ok_iff.mpr ⟨u, hunit, rfl⟩, hplace, runOn_of_ok hdone, rfl⟩

/-- **Generating is all or nothing.** Whatever the files are, unreadable, malformed or missing, and
whatever the run is told: if it does not exit with zero, every file is as it was and there is none
beside them. If it does, the output holds the text that `compile` gives for the documents, read in
the order in which they are named, under the settings, and everything else is as it was. And it does
whenever there is such a text and the output can be replaced by it. -/
theorem generate_all_or_nothing (fs : FileSystem) (s : Sources) (output : String) :
    ((runOn fs (.generate s output)).1.exitCode ≠ 0 → (runOn fs (.generate s output)).2 = fs)
      ∧ ((runOn fs (.generate s output)).1.exitCode = 0 →
          ∃ documents c source, Loaded fs s documents c ∧ compile documents c = .ok source
            ∧ fs.Replaced (runOn fs (.generate s output)).2 output source)
      ∧ ∀ documents c source, Loaded fs s documents c → compile documents c = .ok source →
          fs.Replaceable output source → (runOn fs (.generate s output)).1.exitCode = 0 := by
  obtain ⟨outcome, hrun, hexit, hcannot⟩ | ⟨outcome, documents, c, source, place, hloaded, hcompile,
    hplace, hrun, hexit⟩ := runOn_generate_cases fs s output
  · rw [hrun]
    exact ⟨fun _ => rfl, fun hzero => absurd (hexit.symm.trans hzero) (by decide),
      fun documents c source hloaded hcompile hcan =>
        absurd hcan (hcannot documents c source hloaded hcompile)⟩
  · rw [hrun]
    exact ⟨fun hnonzero => absurd hexit hnonzero, fun _ =>
      ⟨documents, c, source, hloaded, hcompile, FileSystem.replaced_put hplace⟩,
      fun _ _ _ _ _ _ => hexit⟩

/-- A document that declares one metric. -/
def sampleDocument : Json :=
  .object [("metrics", .array [.object [("description", .string "d"),
    ("name", .string "file_save")]])]

def sampleText : String := sampleDocument.pretty ++ "\n"

/-- A machine with this document in its working directory. -/
def sampleFiles : FileSystem :=
  FileSystem.machine.put ["tmp", FileSystem.temporaryName, "a.json"] (.file sampleText.toUTF8 true)

theorem replaceable_sampleFiles (source : String) : sampleFiles.Replaceable "out.ts" source where
  writable := rfl
  short := by decide
  free := ⟨["tmp", FileSystem.temporaryName], rfl, 0, by decide, rfl⟩
  room := fun _ h => nomatch h
  leads := ⟨["tmp", FileSystem.temporaryName, "out.ts"], rfl⟩

theorem loaded_sampleFiles :
    Loaded sampleFiles ⟨["a.json"], none, false⟩ [⟨[], [.bare "file_save" "d" []]⟩] .default := by
  have hread : sampleFiles.read "a.json" = .ok sampleText := FileSystem.read_put rfl
  have hlegible : Json.Legible Json.maxNesting sampleDocument := by
    refine .object (List.pairwise_singleton _ _) (List.forall_mem_singleton.mpr (.array ?_))
    refine List.forall_mem_singleton.mpr (.object (by decide) ?_)
    rw [List.forall_mem_cons, List.forall_mem_singleton]
    exact ⟨.string "d", .string "file_save"⟩
  have hparse : Definitions.parse (.ofPath "a.json") sampleText = .ok sampleDocument := by
    have hformat : Definitions.Format.ofPath "a.json" = .json := by decide
    rw [hformat, Definitions.parse, sampleText, Json.parse_pretty hlegible]
  have hdocument :
      Definitions.ofText sampleText "a.json" = .ok ⟨[], [.bare "file_save" "d" []]⟩ := by
    rw [Definitions.ofText, hparse]
    rfl
  exact ⟨.cons ⟨sampleText, hread, hdocument⟩ .nil, .default, rfl, rfl⟩

/-- A run on this machine succeeds, and leaves its output beside the document. -/
theorem generate_all_or_nothing_sample :
    (runOn sampleFiles (.generate ⟨["a.json"], none, false⟩ "out.ts")).1.exitCode = 0
      ∧ ∃ documents c source, Loaded sampleFiles ⟨["a.json"], none, false⟩ documents c
        ∧ compile documents c = .ok source
        ∧ (runOn sampleFiles (.generate ⟨["a.json"], none, false⟩ "out.ts")).2.workingFiles
          = [("out.ts", source.toUTF8), ("a.json", sampleText.toUTF8)] := by
  obtain ⟨source, hcompile⟩ :
      ∃ source, compile [⟨[], [.bare "file_save" "d" []]⟩] .default = .ok source := ⟨_, rfl⟩
  have hexit := (generate_all_or_nothing sampleFiles ⟨["a.json"], none, false⟩ "out.ts").2.2
    _ _ source loaded_sampleFiles hcompile (replaceable_sampleFiles source)
  refine ⟨hexit, ?_⟩
  obtain ⟨outcome, hrun, hone, -⟩ | ⟨outcome, documents, c, source, place, hloaded, hcompile, hplace,
    hrun, -⟩ := runOn_generate_cases sampleFiles ⟨["a.json"], none, false⟩ "out.ts"
  · rw [hrun] at hexit
    exact absurd (hone.symm.trans hexit) (by decide)
  · obtain rfl : ["tmp", FileSystem.temporaryName, "out.ts"] = place := Except.ok.inj hplace
    exact ⟨documents, c, source, hloaded, hcompile, by rw [hrun]; rfl⟩

end Command

end TelemetryTypes
