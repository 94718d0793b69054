import TelemetryTypes.Proofs.Synthesis.Exports
import TelemetryTypes.Proofs.Synthesis.References

/-!
# Type names in scope

The text of a declaration uses type names: words of the target language, type parameters that it
binds itself, types of the target's library, and types that the same source exports. Which of these a
name stands for is decided by where it is used: a word of the language is always itself, a parameter
hides what is exported, and what is exported hides the library. `Mention` is a use of a type name
with what the text means by it, and `Mention.referent` is what the name stands for.
-/

namespace TelemetryTypes

namespace Target

/-- The words that the target language keeps for itself. -/
def reservedWords : List String :=
  ["break", "case", "catch", "class", "const", "continue", "debugger", "default", "delete", "do",
    "else", "enum", "export", "extends", "false", "finally", "for", "function", "if", "import", "in",
    "instanceof", "new", "null", "return", "super", "switch", "this", "throw", "true", "try",
    "typeof", "var", "void", "while", "with",
    -- these only in strict code, which is what a module is
    "await", "implements", "interface", "let", "package", "private", "protected", "public", "static",
    "yield"]

/-- The names of the types that are built into the target language. -/
def predefinedTypes : List String :=
  ["any", "unknown", "never", "string", "number", "bigint", "boolean", "symbol", "object", "void",
    "undefined"]

/-- The types of the target's library that the texts of declarations use. -/
def utilityTypes : List String := ["Partial", "Omit", "Pick", "Record"]

end Target

/-! ### Uses of names -/

/-- What the text of a declaration means by a type name. -/
inductive Sense where
  | predefined | parameter | library
  | base | metric | union | definitionShape | shapeMap | span | recorder
  deriving DecidableEq

/-- A use of a type name, with the type parameters that are bound around it. -/
structure Mention where
  name : String
  bound : List String
  sense : Sense
  deriving DecidableEq

/-- The use of a type as the type of a property. -/
def TypeExpr.mention : TypeExpr → Mention
  | named name => ⟨name, [], .union⟩
  | type => ⟨type.text, [], .predefined⟩

namespace Declaration

/-- The type names in the text of a declaration, which are those that are read off it
(`Declaration.uses_text`). -/
def mentions : Declaration → List Mention
  | interface i => i.extends?.toList.map (⟨·, [], .base⟩) ++ i.fields.map (·.type.mention)
  | union _ => []
  | definitionShape => [⟨"string", [], .predefined⟩, ⟨"boolean", [], .predefined⟩]
  | shapeMap entries => entries.map fun e => ⟨e.2, [], .metric⟩
  | nameUnion => [⟨shapeMapName, [], .shapeMap⟩]
  | definitionsTable _ =>
      [⟨"Record", [], .library⟩, ⟨"string", [], .predefined⟩,
        ⟨definitionShapeName, [], .definitionShape⟩]
  | metadataOverride base overridable =>
      [⟨base, ["T"], .base⟩, ⟨"Partial", ["T"], .library⟩, ⟨"Omit", ["T"], .library⟩,
        ⟨"T", ["T"], .parameter⟩]
        ++ if overridable.isEmpty then [] else [⟨"Pick", ["T"], .library⟩]
  | span base => [⟨base, ["T"], .base⟩, ⟨"Partial", ["T"], .library⟩, ⟨"T", ["T"], .parameter⟩]
  | recorder base =>
      [⟨base, ["T"], .base⟩, ⟨"string", ["T"], .predefined⟩, ⟨"T", ["T"], .parameter⟩,
        ⟨"void", ["T"], .predefined⟩, ⟨spanName, ["U", "T"], .span⟩, ⟨"T", ["U", "T"], .parameter⟩,
        ⟨"U", ["U", "T"], .parameter⟩]
  | accessorBase c =>
      c.accessors.map (⟨·.shape, [], .metric⟩)
        ++ [⟨recorderName, [], .recorder⟩, ⟨"string", [], .predefined⟩]

end Declaration

/-! ### What names stand for -/

/-- What a type name stands for: a built-in type, a type parameter, a type of the library, what the
source exports, or nothing. -/
inductive Referent where
  | predefined | parameter | library
  | exported (d : Declaration)
  | unknown
  deriving DecidableEq

/-- What a use of a type name stands for in a source. -/
def Mention.referent (u : SourceUnit) (m : Mention) : Referent :=
  if m.name ∈ Target.predefinedTypes then .predefined
  else if m.name ∈ m.bound then .parameter
  else
    match (u.declarations.filter Declaration.exportsType).find? (·.name == m.name) with
    | some d => .exported d
    | none => if m.name ∈ Target.utilityTypes then .library else .unknown

/-- Whether a referent is the one that is meant. -/
def Sense.Meets (u : SourceUnit) : Sense → Referent → Prop
  | predefined, r => r = .predefined
  | parameter, r => r = .parameter
  | library, r => r = .library
  | base, r => ∃ i, u.interfaces.head? = some i ∧ r = .exported (.interface i)
  | metric, r => ∃ i ∈ u.interfaces.tail, r = .exported (.interface i)
  | union, r => ∃ v ∈ u.unions, r = .exported (.union v)
  | definitionShape, r => r = .exported .definitionShape
  | shapeMap, r => ∃ entries, r = .exported (.shapeMap entries)
  | span, r => ∃ base, r = .exported (.span base)
  | recorder, r => ∃ base, r = .exported (.recorder base)

namespace Mention

/-- A use of a name that stands for what is meant by it. -/
def Faithful (u : SourceUnit) (m : Mention) : Prop := m.sense.Meets u (m.referent u)

variable {u : SourceUnit} {m : Mention}

theorem referent_of_bound (hbuiltin : m.name ∉ Target.predefinedTypes) (hbound : m.name ∈ m.bound) :
    m.referent u = .parameter := by
  rw [referent, if_neg hbuiltin, if_pos hbound]

theorem referent_of_utility (hbuiltin : m.name ∉ Target.predefinedTypes) (hfree : m.name ∉ m.bound)
    (hutility : m.name ∈ Target.utilityTypes)
    (hnone : ∀ d ∈ u.declarations, d.name ∉ Target.utilityTypes) : m.referent u = .library := by
  have hfind : (u.declarations.filter Declaration.exportsType).find? (·.name == m.name) = none := by
    rw [List.find?_eq_none]
    intro d hd hname
    rw [beq_iff_eq] at hname
    exact hnone d (List.mem_of_mem_filter hd) (hname ▸ hutility)
  rw [referent, if_neg hbuiltin, if_neg hfree, hfind]
  exact if_pos hutility

theorem referent_of_exported (hbuiltin : m.name ∉ Target.predefinedTypes) (hfree : m.name ∉ m.bound)
    (hnodup : ((u.declarations.filter Declaration.exportsType).map Declaration.name).Nodup)
    {d : Declaration} (hd : d ∈ u.declarations) (htype : d.exportsType = true)
    (hname : d.name = m.name) : m.referent u = .exported d := by
  have hfind := find?_of_mem_of_nodup Declaration.name hnodup (List.mem_filter.mpr ⟨hd, htype⟩)
  rw [hname] at hfind
  rw [referent, if_neg hbuiltin, if_neg hfree, hfind]

end Mention

end TelemetryTypes
