import TelemetryTypes.Definitions.Json
import TelemetryTypes.Json.Parser
import TelemetryTypes.Schema.Violation
import TelemetryTypes.Text.Basic
import TelemetryTypes.Yaml.Json

/-!
# Reading documents

The extension of its path decides how a document is read: as YAML if it is exactly `yaml` or `yml`,
and as JSON in every other case. It is then held to the schema, so that a fault of its shape is
reported by its place in the document, and decoded. A document that obeys the schema always decodes.

The schema says what a document has to look like. It knows nothing of names that refer to each
other: whether a referenced type exists is only asked when a metric is resolved.
-/

namespace TelemetryTypes

namespace Definitions

/-! ### The schema -/

section

open TelemetryTypes.Schema

def schemaName : String := "telemetryDefinitions.schema.json"

def units : List String := ["None", "Milliseconds", "Bytes", "Percent", "Count"]

/-- A letter, then letters and digits. -/
def typeNamePattern : Pattern := [.one .letter, .any .alphanumeric]

/-- Letters and digits, an underscore, and more of all three. -/
def metricNamePattern : Pattern := [.some .alphanumeric, .one .underscore, .some .wordChar]

def metadataTypeSchema : List Rule :=
  [.properties [
      ("name", [.pattern typeNamePattern, .type .string]),
      ("description", [.type .string]),
      ("allowedValues", [.items [.type .string], .minItems 1, .type .array, .uniqueItems]),
      ("type", [.type .string])],
    .notAll ["allowedValues", "type"],
    .required ["name"],
    .type .object]

def referenceSchema : List Rule :=
  [.properties [
      ("type", [.minLength 1, .type .string]),
      ("required", [.type .boolean]),
      ("description", [.type .string])],
    .required ["type"],
    .type .object]

def metricSchema : List Rule :=
  [.properties [
      ("name", [.pattern metricNamePattern, .type .string]),
      ("description", [.type .string]),
      ("unit", [.enum units, .type .string]),
      ("passive", [.type .boolean]),
      ("trackPerformance", [.type .boolean]),
      ("metadata", [.items [.reference referenceSchema], .type .array])],
    .required ["name", "description"],
    .type .object]

def schema : List Rule :=
  [.properties [
      ("types", [.items [.reference metadataTypeSchema], .type .array]),
      ("metrics", [.items [.reference metricSchema], .type .array])],
    .type .object]

end

end Definitions

/-! ### Faults -/

/-- Why a document was not taken. -/
inductive DocumentError where
  | rejected (path : String) (violations : List Schema.Violation)
  | unreadable (path reason : String)
  /-- The document obeys the schema and still does not decode. -/
  | undecodable (path reason : String)
  /-- The schema itself cannot be used. -/
  | brokenSchema (schema reason : String)

namespace DocumentError

def message : DocumentError → String
  | rejected path violations =>
    path ++ " failed validation against '" ++ Definitions.schemaName ++ "':\n"
      ++ "\n".intercalate (violations.map Schema.Violation.line)
  | unreadable path reason => s!"document load error for '{path}': {reason}"
  | undecodable path reason => s!"document '{path}' does not match the definitions model: {reason}"
  | brokenSchema schema reason => s!"validator build error for schema '{schema}': {reason}"

def path? : DocumentError → Option String
  | rejected path _ => some path
  | unreadable path _ => some path
  | undecodable path _ => some path
  | brokenSchema _ _ => none

end DocumentError

namespace Definitions

/-! ### Taking a document -/

def violations (value : Json) : List Schema.Violation := Schema.violations [] [] schema value

/-- The definitions of a JSON value; `source` names the document in errors. -/
def ofJson (value : Json) (source : String) : Except DocumentError Definitions :=
  match violations value with
  | [] =>
    match decode value with
    | .ok d => .ok d
    | .error e => .error (.undecodable source e.message)
  | found => .error (.rejected source found)

/-! ### Reading a text -/

inductive Format where
  | json | yaml
  deriving DecidableEq

def Format.ofPath (path : String) : Format :=
  match Text.extension? path with
  | some "yaml" => .yaml
  | some "yml" => .yaml
  | _ => .json

/-- The JSON value that a text holds, or why it holds none. -/
def parse (format : Format) (text : String) : Except String Json :=
  match format with
  | .json =>
    match Json.parse text with
    | .ok value => .ok value
    | .error e => .error ("invalid JSON: " ++ e.message)
  | .yaml =>
    match Yaml.parse text with
    | .ok value => .ok value
    | .error e => .error (e.explain "invalid YAML")

def ofText (text path : String) : Except DocumentError Definitions :=
  match parse (.ofPath path) text with
  | .ok value => ofJson value path
  | .error reason => .error (.unreadable path reason)

end Definitions

end TelemetryTypes
