import TelemetryTypes.Definitions.Basic

/-!
# Merging documents

Documents are put one behind the other and of every name the first declaration is kept: an earlier
document overrides a later one. Types and metrics are merged each on their own.

The metadata that the base type carries by default is declared by definitions that come with the
program. They are merged behind the documents of a run, so that a document may declare any of them
anew.
-/

namespace TelemetryTypes

/-! ### Merging -/

/-- Keeps the items whose key is neither among the given ones nor that of an earlier item. -/
def keepFirstFrom {α : Type} (key : α → String) (seen : List String) : List α → List α
  | [] => []
  | item :: rest =>
    if key item ∈ seen then keepFirstFrom key seen rest
    else item :: keepFirstFrom key (key item :: seen) rest

/-- Keeps the first item of every key, in order. -/
def keepFirst {α : Type} (key : α → String) (items : List α) : List α := keepFirstFrom key [] items

/-- The items that `keepFirstFrom` drops, in order. -/
def dropFirstFrom {α : Type} (key : α → String) (seen : List String) : List α → List α
  | [] => []
  | item :: rest =>
    if key item ∈ seen then item :: dropFirstFrom key seen rest
    else dropFirstFrom key (key item :: seen) rest

/-- The items whose key an earlier item has, in order. -/
def shadowed {α : Type} (key : α → String) (items : List α) : List α := dropFirstFrom key [] items

namespace Definitions

def concat (documents : List Definitions) : Definitions :=
  ⟨documents.flatMap types, documents.flatMap metrics⟩

/-- The merge of documents: the first declaration of every name. -/
def merge (documents : List Definitions) : Definitions :=
  let all := concat documents
  ⟨keepFirst MetadataType.name all.types, keepFirst Metric.name all.metrics⟩

/-! ### The bundled definitions -/

/-- The name of the bundled definitions in logs. -/
def bundledSource : String := "<bundled>/commonDefinitions.json"

def bundledTypes : List MetadataType := [
  ⟨"awsAccount", some <|
      "AWS account ID associated with a metric",
    none, some "string"⟩,
  ⟨"awsRegion", some <|
      "AWS Region associated with a metric",
    none, some "string"⟩,
  ⟨"duration", some <|
      "The duration of the operation in milliseconds",
    none, some "double"⟩,
  ⟨"httpStatusCode", some <|
      "HTTP status code for the request (if any) associated with a metric",
    none, some "string"⟩,
  ⟨"reason", some <|
      "Reason code or name for an event (when result=Succeeded) or error (when "
      ++ "result=Failed). Unlike the `reasonDesc` field, this should be a "
      ++ "stable/predictable name for a class of events or errors (typically the "
      ++ "exception name, e.g. FileIOException).",
    none, some "string"⟩,
  ⟨"reasonDesc", some <|
      "Error message detail. May contain arbitrary message details (unlike the "
      ++ "`reason` field), but should be truncated (recommendation: 200 chars).",
    none, some "string"⟩,
  ⟨"requestId", some <|
      "A generic request ID field. For AWS service calls, this is the request ID "
      ++ "returned by the service.",
    none, some "string"⟩,
  ⟨"requestServiceType", some <|
      "Per-request service identifier. Unlike `serviceType` (which describes the "
      ++ "originator of the request), this describes the request itself.",
    none, some "string"⟩,
  ⟨"result", some <|
      "The result of the operation",
    some ["Succeeded", "Failed", "Cancelled"], none⟩,
  ⟨"source", some <|
      "The source (user gesture, command, etc.) that triggered the event",
    none, some "string"⟩]

/-- The bundled definitions, which declare no metrics. -/
def bundled : Definitions := ⟨bundledTypes, []⟩

end Definitions

end TelemetryTypes
