import TelemetryTypes.Config.Json
import TelemetryTypes.Text.Basic
import TelemetryTypes.Yaml.Reader

/-!
# Settings as YAML

Settings are a mapping of which every key is optional. Any scalar is taken as a text, as it is
written; an empty scalar also is an empty mapping or an empty list. A text of blank characters only
or without a document has no settings, so all of them are the defaults. Settings that were read
have to be consistent as well.
-/

namespace TelemetryTypes.Config

open Yaml (Content Node Path Reading)

/-- Reads a boolean, which is a plain scalar, or a literal one with the tag of booleans. -/
def readFlag (path : Path) (c : Content) : Reading Bool :=
  match c with
  | .scalar _ tag style s =>
    let isCandidate := style = .plain || (style = .literal && tag = some (Yaml.coreTag "bool"))
    match if isCandidate then Yaml.bool? s else none with
    | some b => return b
    | none => Reading.refuseType "a boolean" path c
  | _ => Reading.refuseType "a boolean" path c

def isEmptyContent : Content → Bool
  | .scalar _ _ style s => style = .plain && s.isEmpty
  | _ => false

def readNames (path : Path) (c : Content) : Reading (List String) :=
  match c with
  | .sequence _ _ items =>
    items.zipIdx.mapM fun (n, i) => do Reading.text "a string" (.item path i) (← Reading.follow n)
  | _ => if isEmptyContent c then return [] else Reading.refuseType "a sequence" path c

def readSetting (c : Config) (key : String) (path : Path) (value : Content) : Reading Config :=
  match key with
  | "base_type_name" => do
    return { c with baseTypeName := ← Reading.text "a string" path value }
  | "client_class_name" => do
    return { c with clientClassName := ← Reading.text "a string" path value }
  | "common_metadata" => do return { c with commonMetadata := ← readNames path value }
  | "overridable_metadata" => do return { c with overridableMetadata := ← readNames path value }
  | _ => do return { c with includeDefaults := ← readFlag path value }

/-- Reads the entries of a mapping of settings that starts at `start`. A key may not come twice,
and every key has to be that of a setting. -/
def readSettings (start : Yaml.Mark) (seen : List String) (c : Config) :
    List (Node × Node) → Reading Config
  | [] => return c
  | (key, value) :: rest => do
    let keyContent ← Reading.follow key
    let name ← Reading.text "field identifier" .root keyContent
    if name ∉ keys then
      Reading.refuse (Mismatch.unknownField name keys).message .root keyContent.mark
    if name ∈ seen then
      Reading.refuse s!"duplicate field {Mismatch.accented name}" .root start
    let c ← readSetting c name (Reading.valuePath .root key) (← Reading.follow value)
    readSettings start (name :: seen) c rest

def readNode (node : Node) : Reading Config := do
  let c ← Reading.follow node
  match c with
  | .mapping mark _ pairs => readSettings mark [] default pairs
  | _ =>
    if isEmptyContent c then return default
    else Reading.refuseType "struct GeneratorConfig" .root c

def parse (text : String) : Except String Config :=
  match Yaml.readText default readNode text with
  | .ok c => .ok c
  | .error e => .error (e.explain "invalid configuration")

/-- Consistent settings of a text, or what is wrong with it or them. -/
def ofText (text : String) : Except String Config :=
  if Text.isBlankText text then .ok default
  else do
    let c ← parse text
    match c.check with
    | .ok () => .ok c
    | .error e => .error e.message

end TelemetryTypes.Config
