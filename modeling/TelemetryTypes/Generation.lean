import TelemetryTypes.Definitions.Text
import TelemetryTypes.Synthesis.Unit

/-!
# Generating a source

From definitions and settings to a unit, and from documents to the text of a source. The bundled
definitions are merged in last, unless the settings leave them out. No state outlives a run: every
one starts with no unions, and ends at its first failure. A document can fail to be read or taken,
definitions can fail to resolve, and settings to be consistent; a failure of a document becomes a
failure of the run that names the document.
-/

namespace TelemetryTypes

/-! ### Failures -/

/-- Why a run failed. -/
inductive Failure where
  | input (path reason : String)
  | resolution (e : ResolutionError)
  | config (reason : String)
  | io (reason : String)
  | json (reason : String)

namespace Failure

def message : Failure → String
  | input path reason => s!"input validation error in {path}: {reason}"
  | resolution e => s!"resolution error: {e.message}"
  | config reason => s!"configuration error: {reason}"
  | io reason => s!"I/O error: {reason}"
  | json reason => s!"JSON error: {reason}"

def ofDocument (e : DocumentError) : Failure :=
  input (e.path?.getD Definitions.schemaName) e.message

end Failure

/-! ### Runs -/

/-- The unit of definitions under settings, which are checked first. -/
def generate (d : Definitions) (c : Config) : Except Failure SourceUnit :=
  match c.check with
  | .error e => .error (.config e.message)
  | .ok () =>
    match (Resolving.answer (Synthesis.synthesize d c) .empty).1 with
    | .error e => .error (.resolution e)
    | .ok u => .ok u

/-- The documents of a run: those given, and the bundled ones behind them. -/
def withBundled (documents : List Definitions) (c : Config) : List Definitions :=
  if c.includeDefaults then documents ++ [.bundled] else documents

def generateDocuments (documents : List Definitions) (c : Config) : Except Failure SourceUnit :=
  generate (.merge (withBundled documents c)) c

def compile (documents : List Definitions) (c : Config) : Except Failure String :=
  SourceUnit.render <$> generateDocuments documents c

end TelemetryTypes
