import TelemetryTypes.Config.Basic
import TelemetryTypes.Definitions.Merge
import TelemetryTypes.Resolution
import TelemetryTypes.Text.Basic

/-!
# Metrics with their fields resolved

A resolved metric has the type of every field it carries. The interface of a metric and its record in
the runtime table are both read off this value, so they cannot disagree about what is required. A
field that the base type already carries as optional is declared again only where the metric requires
it.

The base type carries the common metadata, in the order of the settings, and the client's fields. A
metric carries the metadata it refers to, in the order of its references, of which the first to each
name counts and later ones say nothing. Both are resolved against the first declaration of every
name.
-/

namespace TelemetryTypes

/-! ### Resolved metrics -/

structure ResolvedField where
  name : String
  type : TypeExpr
  required : Bool
  inherited : Bool
  doc : Option String
  deriving DecidableEq

namespace ResolvedField

/-- Whether the metric's own interface declares the field. -/
def isDeclared (f : ResolvedField) : Bool := !f.inherited || f.required

def toField (f : ResolvedField) : Field :=
  { name := f.name, type := f.type, optional := !f.required, doc := f.doc, deprecated := false }

end ResolvedField

/-- A metric with its fields resolved and its flags settled. -/
structure ResolvedMetric where
  name : String
  typeName : String
  description : String
  unit : Option String
  passive : Bool
  trackPerformance : Bool
  fields : List ResolvedField
  deriving DecidableEq

namespace ResolvedMetric

def requiredFields (m : ResolvedMetric) : List String :=
  (m.fields.filter (·.required)).map (·.name)

def field? (m : ResolvedMetric) (name : String) : Option ResolvedField :=
  m.fields.find? (·.name == name)

def interface (m : ResolvedMetric) (base : String) : Interface :=
  { name := m.typeName, doc := some m.description, extends? := some base,
    fields := (m.fields.filter (·.isDeclared)).map (·.toField) }

end ResolvedMetric

/-! ### The base type and the metrics -/

open TelemetryTypes.MetadataType (resolveName)

namespace Synthesis

def commonField (types : List MetadataType) (owner name : String) : Resolving Field := do
  let (t, type) ← resolveName types name owner
  return { name, type, optional := true, doc := t.description, deprecated := false }

def baseTypeDoc : String := "Metadata shared by every metric"

/-- The base type: common metadata, then the client's fields. -/
def baseType (types : List MetadataType) (c : Config) : Resolving Interface := do
  let common ← c.commonMetadata.mapM (commonField types c.baseTypeName)
  return { name := c.baseTypeName, doc := some baseTypeDoc, extends? := none,
           fields := common ++ ClientField.all.map ClientField.toField }

/-- The references of a metric that count: the first to each name. -/
def effectiveReferences (m : Metric) : List Reference := keepFirst Reference.typeName m.metadata

/-- What is said of a field: what the reference says, unless that is blank, or else what the type
says. -/
def fieldDoc (r : Reference) (t : MetadataType) : Option String :=
  match r.description with
  | some text => if Text.isBlankText text then t.description else some text
  | none => t.description

def resolveReference (types : List MetadataType) (c : Config) (metric : String) (r : Reference) :
    Resolving ResolvedField := do
  if ClientField.isReserved r.typeName then throw (.reservedField metric r.typeName)
  let (t, type) ← resolveName types r.typeName metric
  return { name := r.typeName, type, required := r.isRequired, inherited := c.isCommon r.typeName,
           doc := fieldDoc r t }

def resolveMetric (types : List MetadataType) (c : Config) (m : Metric) :
    Resolving ResolvedMetric := do
  let fields ← (effectiveReferences m).mapM (resolveReference types c m.name)
  return { name := m.name, typeName := m.typeName, description := m.description, unit := m.unit,
           passive := m.passive.getD false, trackPerformance := m.trackPerformance.getD false,
           fields }

end Synthesis

end TelemetryTypes
