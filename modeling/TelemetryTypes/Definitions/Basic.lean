import TelemetryTypes.Text.Naming

/-!
# Definitions

A definitions document declares metadata types and metrics. A metadata type is enumerated when it
lists its values and primitive otherwise; a metric refers to the metadata types that its records
carry. Names are looked up by first match, so of two declarations of one name the earlier counts.
-/

namespace TelemetryTypes

/-- A named kind of metadata. -/
structure MetadataType where
  name : String
  description : Option String
  allowedValues : Option (List String)
  kind : Option String
  deriving DecidableEq

namespace MetadataType

/-- A type that declares nothing but its name. -/
def bare (name : String) : MetadataType := ⟨name, none, none, none⟩

def primitive (name kind : String) : MetadataType := ⟨name, none, none, some kind⟩

def enumerated (name : String) (values : List String) : MetadataType :=
  ⟨name, none, some values, none⟩

/-- The name of the union that an enumerated type gives. -/
def unionName (t : MetadataType) : String := Text.pascalCase t.name

end MetadataType

structure Reference where
  typeName : String
  required : Option Bool
  description : Option String
  deriving DecidableEq

namespace Reference

def requiredTo (typeName : String) : Reference := ⟨typeName, some true, none⟩

def optionalTo (typeName : String) : Reference := ⟨typeName, some false, none⟩

/-- Whether a record must carry the metadata. A reference that does not say so is required. -/
def isRequired (r : Reference) : Bool := r.required.getD true

end Reference

/-- A named telemetry event. -/
structure Metric where
  name : String
  description : String
  unit : Option String
  passive : Option Bool
  trackPerformance : Option Bool
  metadata : List Reference
  deriving DecidableEq

namespace Metric

def bare (name description : String) (metadata : List Reference) : Metric :=
  ⟨name, description, none, none, none, metadata⟩

def typeName (m : Metric) : String := Text.pascalCase m.name

end Metric

/-- A definitions document, or several merged into one. -/
structure Definitions where
  types : List MetadataType
  metrics : List Metric
  deriving DecidableEq

namespace Definitions

def empty : Definitions := ⟨[], []⟩

/-- The first metadata type of a name. -/
def metadataType? (d : Definitions) (name : String) : Option MetadataType :=
  d.types.find? (·.name == name)

def metric? (d : Definitions) (name : String) : Option Metric :=
  d.metrics.find? (·.name == name)

end Definitions

end TelemetryTypes
