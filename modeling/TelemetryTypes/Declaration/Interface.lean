import TelemetryTypes.Kind

/-!
# Interfaces, unions and client fields

The types of the generated source: interfaces with read-only properties, and unions of string
literals. A property has a primitive type or names a union.

The base type has a few fields that belong to the telemetry client and to no definition. They are
optional, and no metric and no setting may claim their names.
-/

namespace TelemetryTypes

/-! ### Interfaces and unions -/

inductive TypeExpr where
  | string | number | boolean
  | named (name : String)
  deriving DecidableEq, Repr

namespace TypeExpr

def ofKind : Kind → TypeExpr
  | .string => string
  | .int => number
  | .double => number
  | .boolean => boolean

def text : TypeExpr → String
  | string => "string"
  | number => "number"
  | boolean => "boolean"
  | named name => name

end TypeExpr

structure Field where
  name : String
  type : TypeExpr
  optional : Bool
  doc : Option String
  deprecated : Bool
  deriving DecidableEq

/-- An exported interface, which may extend another one. -/
structure Interface where
  name : String
  doc : Option String
  extends? : Option String
  fields : List Field
  deriving DecidableEq

/-- The first property of a name. -/
def Interface.field? (i : Interface) (name : String) : Option Field :=
  i.fields.find? (·.name == name)

structure LiteralUnion where
  name : String
  literals : List String
  deriving DecidableEq

/-! ### Client fields -/

/-- A field of the base type that the client owns. -/
structure ClientField where
  name : String
  kind : Kind
  doc : String
  deprecated : Bool
  deriving DecidableEq

namespace ClientField

/-- The client's fields, in the order of the base type. -/
def all : List ClientField := [
  ⟨"passive", .boolean,
    "The metric was caused automatically rather than by a direct user action", false⟩,
  ⟨"trackPerformance", .boolean,
    "The client records performance data alongside the metric", false⟩,
  ⟨"traceId", .string,
    "Identifier shared by every metric recorded within one traced operation", false⟩,
  ⟨"metricId", .string, "Unique identifier of this metric instance", false⟩,
  ⟨"parentId", .string, "Identifier of the enclosing metric, if any", false⟩,
  ⟨"value", .double, "Arbitrary \"value\" of the metric", true⟩]

def toField (f : ClientField) : Field :=
  { name := f.name, type := .ofKind f.kind, optional := true, doc := some f.doc,
    deprecated := f.deprecated }

/-- Whether a name is that of a client field. -/
def isReserved (name : String) : Bool := all.any (·.name == name)

end ClientField

end TelemetryTypes
