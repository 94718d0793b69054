import TelemetryTypes.Generation
import TelemetryTypes.Log

/-!
# What is logged of a generation

Merging tells of every definition that an earlier one shadows, and of its result. Resolution goes
through the common names and then through the references of each metric; it tells of each union
when it is registered and of each repeated reference, and ends with the first name that does not
resolve.
-/

namespace TelemetryTypes.Command

def countFields (d : Definitions) : List (String × LogValue) :=
  [("types", .count d.types.length), ("metrics", .count d.metrics.length)]

def validatedEntry (source : String) (d : Definitions) : LogEntry :=
  ⟨.debug, "validated definitions document", ("source", .quoted source) :: countFields d⟩

/-! ### Merging -/

def shadowedEntry (kind name : String) : LogEntry :=
  ⟨.debug, "dropping shadowed definition", [("kind", .quoted kind), ("name", .quoted name)]⟩

def mergeEntries (documents : List Definitions) : List LogEntry :=
  let all := Definitions.concat documents
  let merged := Definitions.merge documents
  (shadowed MetadataType.name all.types).map (shadowedEntry "type" ·.name)
    ++ (shadowed Metric.name all.metrics).map (shadowedEntry "metric" ·.name)
    ++ [⟨.debug, "merged definitions",
        ("documents", .count documents.length) :: countFields merged⟩,
      ⟨.debug, "merged definition documents", countFields merged⟩]

/-! ### Resolution -/

/-- What resolution does in turn. -/
inductive Stage where
  /-- Passes over a reference to a name that the metric referred to before. -/
  | repeated (metric field : String)
  | resolve (step : Resolving Unit)

/-- The stages of the references of a metric; `seen` are the names it referred to before. -/
def referenceStages (types : List MetadataType) (c : Config) (metric : String)
    (seen : List String) : List Reference → List Stage
  | [] => []
  | r :: rest =>
    (if r.typeName ∈ seen then .repeated metric r.typeName
      else .resolve (discard (Synthesis.resolveReference types c metric r)))
    :: referenceStages types c metric (r.typeName :: seen) rest

def stages (d : Definitions) (c : Config) : List Stage :=
  c.commonMetadata.map (fun name =>
    .resolve (discard (Synthesis.commonField d.types c.baseTypeName name)))
  ++ d.metrics.flatMap fun m => referenceStages d.types c m.name [] m.metadata

def registeredEntry (r : Registration) : LogEntry :=
  ⟨.debug, "registered literal union",
    [("union", .bare r.union.name), ("members", .count r.union.literals.length)]⟩

def repeatedEntry (metric field : String) : LogEntry :=
  ⟨.debug, "ignoring repeated metadata reference",
    [("metric", .bare metric), ("field", .quoted field)]⟩

/-- What is logged of stages, with the unions registered before. -/
def stageEntries (r : Registry) : List Stage → List LogEntry
  | [] => []
  | .repeated metric field :: rest => repeatedEntry metric field :: stageEntries r rest
  | .resolve step :: rest =>
    let (result, next) := step.answer r
    (next.entries.drop r.size).map registeredEntry ++
      match result with
      | .ok () => stageEntries next rest
      | .error _ => []

/-! ### Generation -/

def unitEntry (u : SourceUnit) : LogEntry :=
  ⟨.info, "synthesized declarations",
    [("metrics", .count u.metrics.length), ("unions", .count u.unions.length),
      ("declarations", .count u.declarations.length)]⟩

def generationEntries (documents : List Definitions) (c : Config) : List LogEntry :=
  let documents' := withBundled documents c
  let merged := Definitions.merge documents'
  (if c.includeDefaults then [validatedEntry Definitions.bundledSource .bundled] else [])
    ++ mergeEntries documents'
    ++ (match c.check with
      | .ok () => stageEntries .empty (stages merged c)
      | .error _ => [])
    ++ (match generateDocuments documents c with
      | .ok u => [unitEntry u]
      | .error _ => [])

end TelemetryTypes.Command
