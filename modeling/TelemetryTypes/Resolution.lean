import TelemetryTypes.Declaration.Interface
import TelemetryTypes.Definitions.Basic

/-!
# Resolution

Definitions of the right shape can still fail to go together: names that nothing declares, kinds that
do not exist, and names that two declarations claim. Every error names the metric or type at fault.

A metadata type resolves to the type of the fields that carry it: a primitive type, or the union of
its values. Every union of a run is registered once, with the metadata type that it was made from. A
second registration from the same type adds nothing, whatever its literals; one from another type is
a collision. The registry keeps the order of first registration. What is registered stays registered
when a later step fails, so a resolution is a change of the registry with an answer that may be an
error.
-/

namespace TelemetryTypes

/-! ### Errors -/

inductive ResolutionError where
  /-- A metric, or the base type, refers to a metadata type that is not declared. -/
  | unknownMetadataType (metric name : String)
  /-- A metadata type has a kind that does not exist; `owner` is what needed it. -/
  | unknownKind (metadata kind owner : String)
  /-- A metric refers to metadata named like a field of the client. -/
  | reservedField (metric field : String)
  | typeNameCollision (name existing incoming : String)
  | invalidTypeName (metric name : String)
  deriving DecidableEq

def ResolutionError.message : ResolutionError → String
  | unknownMetadataType metric name =>
    s!"metric \"{metric}\" references undeclared metadata type \"{name}\""
  | unknownKind metadata kind owner =>
    s!"unknown type \"{kind}\" in metadata \"{metadata}\" (used by \"{owner}\")"
  | reservedField metric field =>
    s!"metric \"{metric}\" declares field \"{field}\" which is reserved by the base type"
  | typeNameCollision name existing incoming =>
    s!"generated type name \"{name}\" is produced by both {existing} and {incoming}"
  | invalidTypeName metric name =>
    s!"metric \"{metric}\" produces type name \"{name}\", which is not an identifier"

/-! ### The registry of unions -/

/-- A registered union and the metadata type it was made from. -/
structure Registration where
  union : LiteralUnion
  source : String
  deriving DecidableEq

/-- The unions of a run, in the order of registration. -/
structure Registry where
  entries : List Registration
  deriving DecidableEq

namespace Registry

def empty : Registry := ⟨[]⟩

def find? (r : Registry) (name : String) : Option Registration :=
  r.entries.find? (·.union.name == name)

def get? (r : Registry) (name : String) : Option LiteralUnion := (r.find? name).map (·.union)

/-- The metadata type that the union of a name was made from. -/
def source? (r : Registry) (name : String) : Option String := (r.find? name).map (·.source)

def unions (r : Registry) : List LiteralUnion := r.entries.map (·.union)

def size (r : Registry) : Nat := r.entries.length

def push (r : Registry) (entry : Registration) : Registry := ⟨r.entries ++ [entry]⟩

/-- A metadata type as a claimant of a type name. -/
def claimant (source : String) : String := s!"metadata type \"{source}\""

/-- Registers a union. The answer says whether it is new; a collision changes nothing. -/
def register (r : Registry) (name source : String) (literals : List String) :
    Except ResolutionError (Bool × Registry) :=
  match r.find? name with
  | some entry =>
    if entry.source = source then .ok (false, r)
    else .error (.typeNameCollision name (claimant entry.source) (claimant source))
  | none => .ok (true, r.push ⟨⟨name, literals⟩, source⟩)

end Registry

/-! ### Resolving metadata types -/

/-- A step that may register unions and may fail. The registry outlives a failure. -/
abbrev Resolving := ExceptT ResolutionError (StateM Registry)

namespace Resolving

/-- The answer of a step, and the registry it leaves. -/
def answer {α : Type} (step : Resolving α) (r : Registry) :
    Except ResolutionError α × Registry := step r

def register (name source : String) (literals : List String) : Resolving Bool := fun r =>
  match r.register name source literals with
  | .ok (added, next) => (.ok added, next)
  | .error e => (.error e, r)

end Resolving

namespace MetadataType

/-- The type of the fields that carry a metadata type. Values that are listed make it enumerated
whatever kind it declares. -/
def resolve (t : MetadataType) (owner : String) : Resolving TypeExpr :=
  match t.allowedValues with
  | some values => do
    discard <| Resolving.register t.unionName t.name values
    return .named t.unionName
  | none =>
    match Kind.declared? t.kind with
    | some kind => return .ofKind kind
    | none => throw (.unknownKind t.name (t.kind.getD "") owner)

def lookup (types : List MetadataType) (name owner : String) :
    Except ResolutionError MetadataType :=
  match types.find? (·.name == name) with
  | some t => .ok t
  | none => .error (.unknownMetadataType owner name)

def resolveName (types : List MetadataType) (name owner : String) :
    Resolving (MetadataType × TypeExpr) := do
  let t ← ExceptT.mk (pure (lookup types name owner))
  let type ← t.resolve owner
  return (t, type)

end MetadataType

end TelemetryTypes
