import TelemetryTypes.Config.Basic
import TelemetryTypes.Json.Decoder

/-!
# Settings as JSON

All settings are written; any of them may be left out when they are read. A key that is no setting
is refused, so that a misspelt one does not pass for a default.
-/

namespace TelemetryTypes.Config

open Json (Decoder)

/-- The keys of the settings, in the order of declaration. -/
def keys : List String :=
  ["base_type_name", "client_class_name", "common_metadata", "overridable_metadata",
    "include_defaults"]

def toJson (c : Config) : Json :=
  .ofEntries [("base_type_name", .string c.baseTypeName),
    ("client_class_name", .string c.clientClassName),
    ("common_metadata", .array (c.commonMetadata.map .string)),
    ("overridable_metadata", .array (c.overridableMetadata.map .string)),
    ("include_defaults", .bool c.includeDefaults)]

/-- Checks one entry: that its key is a setting and its value fits. -/
def checkEntry (entry : String × Json) : Except Mismatch Unit :=
  match entry.1 with
  | "base_type_name" => discard (Decoder.string entry.2)
  | "client_class_name" => discard (Decoder.string entry.2)
  | "common_metadata" => discard (Decoder.list Decoder.string entry.2)
  | "overridable_metadata" => discard (Decoder.list Decoder.string entry.2)
  | "include_defaults" => discard (Decoder.boolean entry.2)
  | key => .error (.unknownField key keys)

def decode : Decoder Config
  | .object entries => do
    entries.forM checkEntry
    let baseTypeName ←
      Decoder.fieldD default.baseTypeName Decoder.string "base_type_name" entries
    let clientClassName ←
      Decoder.fieldD default.clientClassName Decoder.string "client_class_name" entries
    let commonMetadata ←
      Decoder.fieldD default.commonMetadata (Decoder.list Decoder.string) "common_metadata" entries
    let overridableMetadata ←
      Decoder.fieldD default.overridableMetadata (Decoder.list Decoder.string)
        "overridable_metadata" entries
    let includeDefaults ←
      Decoder.fieldD default.includeDefaults Decoder.boolean "include_defaults" entries
    .ok ⟨baseTypeName, clientClassName, commonMetadata, overridableMetadata, includeDefaults⟩
  | .array items => do
    let (baseTypeName, rest) ← Decoder.elementD default.baseTypeName Decoder.string items
    let (clientClassName, rest) ← Decoder.elementD default.clientClassName Decoder.string rest
    let (commonMetadata, rest) ←
      Decoder.elementD default.commonMetadata (Decoder.list Decoder.string) rest
    let (overridableMetadata, rest) ←
      Decoder.elementD default.overridableMetadata (Decoder.list Decoder.string) rest
    let (includeDefaults, rest) ← Decoder.elementD default.includeDefaults Decoder.boolean rest
    Decoder.finish items.length rest
    .ok ⟨baseTypeName, clientClassName, commonMetadata, overridableMetadata, includeDefaults⟩
  | value => Decoder.refuse "struct GeneratorConfig" value

end TelemetryTypes.Config
