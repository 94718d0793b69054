import TelemetryTypes.Declaration.Source

/-!
# Source units

A unit holds the resolved metrics of a schema and the declarations made from them, in the order in
which they are written. Synthesis resolves the base type before any metric, so that the unions of
common metadata come first, and settles the claims on type names before anything is assembled.

Everything that a source exports as a type claims its name, in a fixed order: the base type, the
client class, the fixed types, the metrics and the unions. A name goes to one claimant only, and the
name of a metric's type has to be an identifier.
-/

namespace TelemetryTypes

/-! ### Claims on type names -/

inductive Claimant where
  | baseType | clientClass
  | definitionShape | shapeMap | nameUnion | metadataOverride | span | recorder
  | metric (name : String)
  | union (name : String)
  deriving DecidableEq

namespace Claimant

/-- A claimant, as messages name it. -/
def description : Claimant → String
  | baseType => "the base type"
  | clientClass => "the client base class"
  | definitionShape => "the runtime definition shape"
  | shapeMap => "the metric shape map"
  | nameUnion => "the metric name union"
  | metadataOverride => "the metadata override type"
  | span => "the span type"
  | recorder => "the recorder type"
  | metric name => s!"metric \"{name}\""
  | union name => s!"the literal union \"{name}\""

end Claimant

structure Claim where
  name : String
  claimant : Claimant
  deriving DecidableEq

namespace Claim

def fixed : List Claim := [
  ⟨Declaration.definitionShapeName, .definitionShape⟩,
  ⟨Declaration.shapeMapName, .shapeMap⟩,
  ⟨Declaration.nameUnionName, .nameUnion⟩,
  ⟨Declaration.metadataOverrideName, .metadataOverride⟩,
  ⟨Declaration.spanName, .span⟩,
  ⟨Declaration.recorderName, .recorder⟩]

def all (c : Config) (metrics : List ResolvedMetric) (unions : List LiteralUnion) : List Claim :=
  [⟨c.baseTypeName, .baseType⟩, ⟨c.clientClassName, .clientClass⟩] ++ fixed
    ++ metrics.map (fun m => ⟨m.typeName, .metric m.name⟩)
    ++ unions.map (fun u => ⟨u.name, .union u.name⟩)

/-- Checks that a claim alone is in order. -/
def checkName (claim : Claim) : Except ResolutionError Unit :=
  match claim.claimant with
  | .metric metric =>
    if Text.isIdentifier claim.name then .ok () else .error (.invalidTypeName metric claim.name)
  | _ => .ok ()

/-- Settles claims one after the other; the earlier ones hold. -/
def settle : List Claim → List Claim → Except ResolutionError Unit
  | _, [] => .ok ()
  | held, claim :: rest => do
    checkName claim
    match held.find? (·.name == claim.name) with
    | some existing =>
      .error (.typeNameCollision claim.name existing.claimant.description
        claim.claimant.description)
    | none => settle (held ++ [claim]) rest

end Claim

/-! ### Units -/

/-- The declarations of a source, with the metrics they were made from. -/
structure SourceUnit where
  metrics : List ResolvedMetric
  declarations : List Declaration
  deriving DecidableEq

namespace SourceUnit

def interface? (u : SourceUnit) (name : String) : Option Interface :=
  u.declarations.findSome? fun
    | .interface i => if i.name == name then some i else none
    | _ => none

def unions (u : SourceUnit) : List LiteralUnion :=
  u.declarations.filterMap fun
    | .union v => some v
    | _ => none

def runtimeTable? (u : SourceUnit) : Option RuntimeTable :=
  u.declarations.findSome? fun
    | .definitionsTable t => some t
    | _ => none

def accessors? (u : SourceUnit) : Option AccessorClass :=
  u.declarations.findSome? fun
    | .accessorBase c => some c
    | _ => none

def render (u : SourceUnit) : String := Source.render u.declarations

end SourceUnit

namespace Synthesis

def assemble (c : Config) (base : Interface) (metrics : List ResolvedMetric)
    (unions : List LiteralUnion) : SourceUnit :=
  { metrics
    declarations :=
      [.interface base]
        ++ metrics.map (fun m => .interface (m.interface c.baseTypeName))
        ++ unions.map .union
        ++ [.definitionShape,
          .shapeMap (metrics.map fun m => (m.name, m.typeName)),
          .nameUnion,
          .definitionsTable (.ofMetrics metrics),
          .metadataOverride c.baseTypeName c.overridableMetadata,
          .span c.baseTypeName,
          .recorder c.baseTypeName,
          .accessorBase (.ofMetrics c.clientClassName metrics)] }

/-- The unit of a schema, made with the unions that are already registered. -/
def synthesize (d : Definitions) (c : Config) : Resolving SourceUnit := do
  let base ← baseType d.types c
  let metrics ← d.metrics.mapM (resolveMetric d.types c)
  let unions := (← get).unions
  ExceptT.mk (pure (Claim.settle [] (Claim.all c metrics unions)))
  return assemble c base metrics unions

end Synthesis

end TelemetryTypes
