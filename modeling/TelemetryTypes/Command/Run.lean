import TelemetryTypes.Command.Arguments
import TelemetryTypes.Command.Narration
import TelemetryTypes.Config.Yaml
import TelemetryTypes.Definitions.Text
import TelemetryTypes.FileSystem

/-!
# Runs

Both actions read the settings and then the documents in order, and make the unit of them; `check`
reports on it and `generate` writes its source. The source is complete before the output file is
touched, and that is replaced as a whole, so a run that fails leaves every file as it was. Every
failure is logged as one error that names all its causes.
-/

namespace TelemetryTypes.Command

def programName : String := "telgen 0.1.0"

/-- What every run logs first. -/
def startEntry : LogEntry := ⟨.debug, programName ++ " starting", []⟩

inductive RunError where
  | settings (path reason : String)
  | document (e : DocumentError)
  /-- The documents have no unit; `attempt` says what it was wanted for. -/
  | generation (attempt : String) (f : Failure)
  | output (path : String) (e : ReplaceError)

namespace RunError

/-- A failure with all its causes. The text of an error of resolution counts as a cause as well. -/
def causes : Failure → String
  | .resolution e => (Failure.resolution e).message ++ ": " ++ e.message
  | f => f.message

def workingDirectoryName : String := "<cwd>"

def message : RunError → String
  | settings path reason =>
    s!"failed to load configuration {path}: {(Failure.config reason).message}"
  | document e => e.message
  | generation attempt f => s!"{attempt}: {causes f}"
  | output path (.noTemporary e) =>
    let directory := Text.directoryOf path
    let place := if e = .namesTaken then FileSystem.absolutePath workingDirectoryName directory
      else FileSystem.temporaryPath workingDirectoryName directory
    s!"failed to create a temporary file in {directory}: {e.message} at path "
      ++ Text.quotedPath place
  | output path (.notWritten e) =>
    let place := FileSystem.temporaryPath workingDirectoryName (Text.directoryOf path)
    s!"failed to write {place}: {e.message} at path " ++ Text.quotedPath place
  | output path (.notMoved e) => s!"failed to move output into place at {path}: {e.message}"

end RunError

/-- A run on a store of files: it logs, and may fail. -/
abbrev Running (m : Type → Type) := ExceptT RunError (StateT (List LogEntry) m)

section

variable {m : Type → Type} [Monad m] [FileStore m]

def log (entries : List LogEntry) : Running m Unit := do
  let before ← getThe (List LogEntry)
  set (before ++ entries)

def readFile (path : String) : Running m (Except FileError String) :=
  liftM (FileStore.read path : m _)

def replaceFile (path text : String) : Running m (Except ReplaceError Unit) :=
  liftM (FileStore.replace path text : m _)

/-! ### Reading -/

def loadConfig (path : String) : Running m Config := do
  match ← readFile path with
  | .error e => throw (.settings path s!"cannot read {path}: {e.message}")
  | .ok text =>
    match Config.ofText text with
    | .error reason => throw (.settings path reason)
    | .ok c =>
      log [⟨.debug, "loaded generator configuration", [("path", .bare path)]⟩]
      return c

def settingsOf (s : Sources) : Running m Config := do
  let c ← match s.config with
    | some path => loadConfig path
    | none => pure Config.default
  return if s.noDefaults then { c with includeDefaults := false } else c

def loadDocument (path : String) : Running m Definitions := do
  match ← readFile path with
  | .error e => throw (.document (.unreadable path s!"cannot read file: {e.message}"))
  | .ok text =>
    match Definitions.ofText text path with
    | .error e => throw (.document e)
    | .ok d =>
      log [validatedEntry path d,
        ⟨.info, "loaded definitions", ("path", .bare path) :: countFields d⟩]
      return d

def load (s : Sources) : Running m (List Definitions × Config) := do
  let c ← settingsOf s
  let documents ← s.inputs.mapM loadDocument
  return (documents, c)

def makeUnit (attempt : String) (documents : List Definitions) (c : Config) :
    Running m SourceUnit := do
  log (generationEntries documents c)
  match generateDocuments documents c with
  | .ok u => return u
  | .error f => throw (.generation attempt f)

/-- The unit of the documents of a run. -/
def loadUnit (attempt : String) (s : Sources) : Running m SourceUnit := do
  let (documents, c) ← load s
  makeUnit attempt documents c

/-! ### Actions -/

def report (u : SourceUnit) (json : Bool) : String :=
  if json then (u.runtimeTable?.elim (Json.object []) RuntimeTable.toJson).pretty ++ "\n"
  else s!"OK: {u.metrics.length} metric(s), {u.unions.length} union(s)\n"

/-- Checks that documents have a unit. Returns what is printed. -/
def runCheck (s : Sources) (json : Bool) : Running m String := do
  let u ← loadUnit "definitions do not resolve" s
  return report u json

def writeSource (output source : String) : Running m Unit := do
  match ← replaceFile output source with
  | .error e => throw (.output output e)
  | .ok () =>
    log [⟨.info, "wrote type definitions",
      [("output", .bare output), ("bytes", .count source.utf8ByteSize)]⟩]

/-- Writes the source of documents. Returns what is printed. -/
def runGenerate (s : Sources) (output : String) : Running m String := do
  let u ← loadUnit "failed to generate type definitions" s
  writeSource output u.render
  return ""

def perform : Action → Running m String
  | .check s json => runCheck s json
  | .generate s output => runGenerate s output

/-- What a run leaves besides files. -/
structure Outcome where
  exitCode : Nat
  printed : String
  logged : List LogEntry

/-- Does an action and logs a failure. -/
def run (a : Action) : m Outcome := do
  let (result, entries) ← (ExceptT.run (perform a)).run [startEntry]
  match result with
  | .ok printed => return ⟨0, printed, entries⟩
  | .error e => return ⟨1, "", entries ++ [⟨.error, e.message, []⟩]⟩

end

def Invocation.shown (i : Invocation) (entries : List LogEntry) : List LogEntry :=
  entries.filter (·.level.isShown i.verbosity)

end TelemetryTypes.Command
