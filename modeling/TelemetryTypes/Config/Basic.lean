import TelemetryTypes.Declaration.Interface
import TelemetryTypes.Text.Naming

/-!
# Settings

The settings of a run name the base type and the client class, list the metadata that the base type
carries and the part of it that a caller may override, and say whether the bundled definitions are
merged in. Every setting has a default. Settings are consistent when the two names are identifiers,
the common names are distinct and none is the client's own, and the overridable names are common.
-/

namespace TelemetryTypes

structure Config where
  baseTypeName : String
  clientClassName : String
  commonMetadata : List String
  overridableMetadata : List String
  includeDefaults : Bool
  deriving DecidableEq

inductive ConfigError where
  | invalidTypeName (key value : String)
  | repeatedCommon (name : String)
  | reservedCommon (name : String)
  | overridableNotCommon (name : String)
  deriving DecidableEq

def ConfigError.message : ConfigError → String
  | invalidTypeName key value => s!"{key} \"{value}\" is not a valid type name"
  | repeatedCommon name => s!"common_metadata lists \"{name}\" more than once"
  | reservedCommon name => s!"common_metadata \"{name}\" collides with a client-internal base field"
  | overridableNotCommon name => s!"overridable_metadata \"{name}\" is not in common_metadata"

namespace Config

/-- The settings of a run that is given none. -/
def default : Config where
  baseTypeName := "MetricBase"
  clientClassName := "TelemetryBase"
  commonMetadata := ["awsAccount", "awsRegion", "duration", "httpStatusCode", "reason",
    "reasonDesc", "requestId", "requestServiceType", "result", "source"]
  overridableMetadata := ["awsRegion"]
  includeDefaults := true

instance : Inhabited Config := ⟨default⟩

def isCommon (c : Config) (name : String) : Bool := c.commonMetadata.contains name

def checkTypeName (key value : String) : Except ConfigError Unit :=
  if Text.isIdentifier value then .ok () else .error (.invalidTypeName key value)

/-- Checks the common names behind those already seen. -/
def checkCommon : List String → List String → Except ConfigError Unit
  | _, [] => .ok ()
  | seen, name :: rest =>
    if name ∈ seen then .error (.repeatedCommon name)
    else if ClientField.isReserved name then .error (.reservedCommon name)
    else checkCommon (name :: seen) rest

def checkOverridable (common : List String) : List String → Except ConfigError Unit
  | [] => .ok ()
  | name :: rest =>
    if name ∈ common then checkOverridable common rest else .error (.overridableNotCommon name)

/-- Checks that settings are consistent; reports the first fault. -/
def check (c : Config) : Except ConfigError Unit := do
  checkTypeName "base_type_name" c.baseTypeName
  checkTypeName "client_class_name" c.clientClassName
  checkCommon [] c.commonMetadata
  checkOverridable c.commonMetadata c.overridableMetadata

structure Valid (c : Config) : Prop where
  baseTypeName : Text.isIdentifier c.baseTypeName = true
  clientClassName : Text.isIdentifier c.clientClassName = true
  common_nodup : c.commonMetadata.Nodup
  common_free : ∀ name ∈ c.commonMetadata, ClientField.isReserved name = false
  overridable_subset : c.overridableMetadata ⊆ c.commonMetadata

end Config

end TelemetryTypes
