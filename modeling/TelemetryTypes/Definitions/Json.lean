import TelemetryTypes.Definitions.Basic
import TelemetryTypes.Json.Decoder

/-!
# Definitions as JSON

Each record has an encoder and a decoder. An absent option and an empty list of references are left
out of what is written. A decoder reads the fields of an object in the order of their keys, then
reports the first missing one in the order of declaration; keys that it does not know it passes
over.
-/

namespace TelemetryTypes

open Json (Decoder lookup)

/-- The entry of an optional field, if the field is there. -/
def optionalEntry {α : Type} (key : String) (encode : α → Json) : Option α → List (String × Json)
  | none => []
  | some value => [(key, encode value)]

def stringsToJson (values : List String) : Json := .array (values.map .string)

namespace MetadataType

def entries (t : MetadataType) : List (String × Json) :=
  [("name", .string t.name)] ++ optionalEntry "description" .string t.description
    ++ optionalEntry "allowedValues" stringsToJson t.allowedValues
    ++ optionalEntry "type" .string t.kind

def toJson (t : MetadataType) : Json := .ofEntries t.entries

def decode : Decoder MetadataType
  | .object entries => do
    let allowedValues ←
      Decoder.fieldD none (Decoder.optional (Decoder.list Decoder.string)) "allowedValues" entries
    let description ← Decoder.fieldD none (Decoder.optional Decoder.string) "description" entries
    let name ← Decoder.field? Decoder.string "name" entries
    let kind ← Decoder.fieldD none (Decoder.optional Decoder.string) "type" entries
    let name ← Decoder.present "name" name
    .ok ⟨name, description, allowedValues, kind⟩
  | .array items => do
    let (name, rest) ←
      Decoder.element Decoder.string 0 "struct MetadataType with 4 elements" items
    let (description, rest) ← Decoder.elementD none (Decoder.optional Decoder.string) rest
    let (allowedValues, rest) ←
      Decoder.elementD none (Decoder.optional (Decoder.list Decoder.string)) rest
    let (kind, rest) ← Decoder.elementD none (Decoder.optional Decoder.string) rest
    Decoder.finish items.length rest
    .ok ⟨name, description, allowedValues, kind⟩
  | value => Decoder.refuse "struct MetadataType" value

end MetadataType

namespace Reference

def entries (r : Reference) : List (String × Json) :=
  [("type", .string r.typeName)] ++ optionalEntry "required" .bool r.required
    ++ optionalEntry "description" .string r.description

def toJson (r : Reference) : Json := .ofEntries r.entries

def decode : Decoder Reference
  | .object entries => do
    let description ← Decoder.fieldD none (Decoder.optional Decoder.string) "description" entries
    let required ← Decoder.fieldD none (Decoder.optional Decoder.boolean) "required" entries
    let typeName ← Decoder.field? Decoder.string "type" entries
    let typeName ← Decoder.present "type" typeName
    .ok ⟨typeName, required, description⟩
  | .array items => do
    let (typeName, rest) ←
      Decoder.element Decoder.string 0 "struct MetricMetadataRef with 3 elements" items
    let (required, rest) ← Decoder.elementD none (Decoder.optional Decoder.boolean) rest
    let (description, rest) ← Decoder.elementD none (Decoder.optional Decoder.string) rest
    Decoder.finish items.length rest
    .ok ⟨typeName, required, description⟩
  | value => Decoder.refuse "struct MetricMetadataRef" value

end Reference

namespace Metric

def entries (m : Metric) : List (String × Json) :=
  [("name", .string m.name), ("description", .string m.description)]
    ++ optionalEntry "unit" .string m.unit ++ optionalEntry "passive" .bool m.passive
    ++ optionalEntry "trackPerformance" .bool m.trackPerformance
    ++ (if m.metadata.isEmpty then [] else [("metadata", .array (m.metadata.map Reference.toJson))])

def toJson (m : Metric) : Json := .ofEntries m.entries

def decode : Decoder Metric
  | .object entries => do
    let description ← Decoder.field? Decoder.string "description" entries
    let metadata ← Decoder.fieldD [] (Decoder.list Reference.decode) "metadata" entries
    let name ← Decoder.field? Decoder.string "name" entries
    let passive ← Decoder.fieldD none (Decoder.optional Decoder.boolean) "passive" entries
    let trackPerformance ←
      Decoder.fieldD none (Decoder.optional Decoder.boolean) "trackPerformance" entries
    let unit ← Decoder.fieldD none (Decoder.optional Decoder.string) "unit" entries
    let name ← Decoder.present "name" name
    let description ← Decoder.present "description" description
    .ok ⟨name, description, unit, passive, trackPerformance, metadata⟩
  | .array items => do
    let expected := "struct Metric with 6 elements"
    let (name, rest) ← Decoder.element Decoder.string 0 expected items
    let (description, rest) ← Decoder.element Decoder.string 1 expected rest
    let (unit, rest) ← Decoder.elementD none (Decoder.optional Decoder.string) rest
    let (passive, rest) ← Decoder.elementD none (Decoder.optional Decoder.boolean) rest
    let (trackPerformance, rest) ← Decoder.elementD none (Decoder.optional Decoder.boolean) rest
    let (metadata, rest) ← Decoder.elementD [] (Decoder.list Reference.decode) rest
    Decoder.finish items.length rest
    .ok ⟨name, description, unit, passive, trackPerformance, metadata⟩
  | value => Decoder.refuse "struct Metric" value

end Metric

namespace Definitions

def entries (d : Definitions) : List (String × Json) :=
  [("types", .array (d.types.map MetadataType.toJson)),
    ("metrics", .array (d.metrics.map Metric.toJson))]

def toJson (d : Definitions) : Json := .ofEntries d.entries

def decode : Decoder Definitions
  | .object entries => do
    let metrics ← Decoder.fieldD [] (Decoder.list Metric.decode) "metrics" entries
    let types ← Decoder.fieldD [] (Decoder.list MetadataType.decode) "types" entries
    .ok ⟨types, metrics⟩
  | .array items => do
    let (types, rest) ← Decoder.elementD [] (Decoder.list MetadataType.decode) items
    let (metrics, rest) ← Decoder.elementD [] (Decoder.list Metric.decode) rest
    Decoder.finish items.length rest
    .ok ⟨types, metrics⟩
  | value => Decoder.refuse "struct MetricDefinitionRoot" value

end Definitions

end TelemetryTypes
