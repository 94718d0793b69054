import TelemetryTypes.Json.Basic
import TelemetryTypes.Synthesis.Metric

/-!
# Declarations

The exported items of a generated source, as data. How each is written is the business of its source
text alone.

The runtime table is what a client knows of each metric when it runs: the unit, the two flags, and
the names of the metadata that a record has to carry. Records keep the order of the metrics and are
looked up by first match. The client class has one read-only accessor for every metric, named like
the metric.
-/

namespace TelemetryTypes

/-! ### The runtime table -/

structure RuntimeRecord where
  unit : String
  passive : Bool
  trackPerformance : Bool
  requiredMetadata : List String
  deriving DecidableEq

namespace RuntimeRecord

/-- The unit of a metric that has none. -/
def defaultUnit : String := "None"

def ofMetric (m : ResolvedMetric) : RuntimeRecord :=
  { unit := m.unit.getD defaultUnit, passive := m.passive, trackPerformance := m.trackPerformance,
    requiredMetadata := m.requiredFields }

def toJson (r : RuntimeRecord) : Json :=
  .ofEntries [("unit", .string r.unit), ("passive", .bool r.passive),
    ("trackPerformance", .bool r.trackPerformance),
    ("requiredMetadata", .array (r.requiredMetadata.map .string))]

end RuntimeRecord

/-- Records by metric name, in the order of the metrics. -/
structure RuntimeTable where
  entries : List (String × RuntimeRecord)
  deriving DecidableEq

namespace RuntimeTable

def ofMetrics (metrics : List ResolvedMetric) : RuntimeTable :=
  ⟨metrics.map fun m => (m.name, .ofMetric m)⟩

def get? (t : RuntimeTable) (name : String) : Option RuntimeRecord :=
  (t.entries.find? (·.1 == name)).map (·.2)

def size (t : RuntimeTable) : Nat := t.entries.length

def toJson (t : RuntimeTable) : Json := .ofEntries (t.entries.map fun e => (e.1, e.2.toJson))

end RuntimeTable

/-! ### The accessor class -/

/-- The accessor of a metric; `shape` is the name of the metric's type. -/
structure Accessor where
  metric : String
  shape : String
  doc : String
  deriving DecidableEq

namespace Accessor

def ofMetric (m : ResolvedMetric) : Accessor := ⟨m.name, m.typeName, m.description⟩

end Accessor

structure AccessorClass where
  name : String
  accessors : List Accessor
  deriving DecidableEq

namespace AccessorClass

def ofMetrics (name : String) (metrics : List ResolvedMetric) : AccessorClass :=
  ⟨name, metrics.map .ofMetric⟩

def get? (c : AccessorClass) (metric : String) : Option Accessor :=
  c.accessors.find? (·.metric == metric)

end AccessorClass

/-! ### Exported items -/

/-- An exported item. -/
inductive Declaration where
  /-- The base type or the type of a metric. -/
  | interface (i : Interface)
  | union (u : LiteralUnion)
  | definitionShape
  /-- The type of every metric, by metric name. -/
  | shapeMap (entries : List (String × String))
  | nameUnion
  | definitionsTable (table : RuntimeTable)
  /-- What a caller may pass when a metric is recorded. -/
  | metadataOverride (base : String) (overridable : List String)
  /-- The handle of an instrumented callback. -/
  | span (base : String)
  | recorder (base : String)
  | accessorBase (c : AccessorClass)
  deriving DecidableEq

namespace Declaration

def definitionShapeName : String := "MetricDefinition"

def shapeMapName : String := "MetricShapes"

def nameUnionName : String := "MetricName"

def definitionsTableName : String := "definitions"

def metadataOverrideName : String := "Metadata"

def spanName : String := "Span"

def recorderName : String := "Metric"

/-- The name that a declaration exports. -/
def name : Declaration → String
  | interface i => i.name
  | union u => u.name
  | definitionShape => definitionShapeName
  | shapeMap _ => shapeMapName
  | nameUnion => nameUnionName
  | definitionsTable _ => definitionsTableName
  | metadataOverride _ _ => metadataOverrideName
  | span _ => spanName
  | recorder _ => recorderName
  | accessorBase c => c.name

end Declaration

end TelemetryTypes
