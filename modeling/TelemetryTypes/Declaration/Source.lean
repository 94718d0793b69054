import TelemetryTypes.Declaration.Basic
import TelemetryTypes.Text.Naming

/-!
# The source text of declarations

Every declaration is a list of lines that depends on nothing but the declaration, each at a depth of
four blanks a level. A source is the banner and then, for each declaration, an empty line and its
lines. Strings stand in single quotes, statements have no final semicolon, and property keys are
quoted only where they have to be.

A doc comment is written on one line when its text is one line, and otherwise with a line of its own
for every line of the text. The text is trimmed, its lines lose the blanks at their ends, and a
comment end inside it is taken apart by a backslash, so that the comment ends where it should.
-/

namespace TelemetryTypes

/-! ### Lines and doc comments -/

structure SourceLine where
  depth : Nat
  text : String
  deriving DecidableEq

namespace SourceLine

def blank : SourceLine := ⟨0, ""⟩

def render (l : SourceLine) : String :=
  String.ofList (List.replicate (4 * l.depth) ' ') ++ l.text ++ "\n"

def renderAll (lines : List SourceLine) : String := "".intercalate (lines.map render)

end SourceLine

namespace Comment

/-- Takes every comment end apart. -/
def escapeEnds : List Char → List Char
  | '*' :: '/' :: rest => '*' :: '\\' :: '/' :: escapeEnds rest
  | c :: rest => c :: escapeEnds rest
  | [] => []

/-- The lines of a text as a comment writes them; a blank text has none. -/
def bodyLines (text : String) : List (List Char) :=
  let trimmed := Text.trim text.toList
  if trimmed.isEmpty then [] else (Text.pieces trimmed).map fun l => escapeEnds (Text.trimEnd l)

def decorated (depth : Nat) (l : List Char) : SourceLine :=
  ⟨depth, if l.isEmpty then " *" else " * " ++ String.ofList l⟩

/-- The doc comment of a text, if it says anything. -/
def lines (depth : Nat) (text : Option String) (deprecated : Bool) : List SourceLine :=
  match (text.map bodyLines).getD [], deprecated with
  | [], false => []
  | [], true => [⟨depth, "/** @deprecated */"⟩]
  | [only], false => [⟨depth, "/** " ++ String.ofList only ++ " */"⟩]
  | body, _ =>
    [⟨depth, "/**"⟩] ++ body.map (decorated depth)
      ++ (if deprecated then [⟨depth, " * @deprecated"⟩] else []) ++ [⟨depth, " */"⟩]

end Comment

/-! ### Declarations -/

open Text (literal propertyKey)

namespace Source

def banner : List String :=
  ["// This file is generated by telgen from telemetry definition documents.",
    "// Do not edit it by hand; change the definitions and regenerate instead."]

def block (depth : Nat) (header : String) (body : List SourceLine) : List SourceLine :=
  [⟨depth, header ++ " \x7b"⟩] ++ body ++ [⟨depth, "\x7d"⟩]

/-- A header with a body between braces, which close at once if the body is empty. -/
def blockOrEmpty (depth : Nat) (header : String) (body : List SourceLine) : List SourceLine :=
  if body.isEmpty then [⟨depth, header ++ " \x7b\x7d"⟩] else block depth header body

def literalList (separator : String) (values : List String) : String :=
  separator.intercalate (values.map literal)

end Source

open Source

def Field.lines (depth : Nat) (f : Field) : List SourceLine :=
  Comment.lines depth f.doc f.deprecated
    ++ [⟨depth, "readonly " ++ propertyKey f.name ++ (if f.optional then "?" else "") ++ ": "
      ++ f.type.text⟩]

def Interface.header (i : Interface) : String :=
  "export interface " ++ i.name ++ match i.extends? with
    | some base => " extends " ++ base
    | none => ""

def Interface.lines (i : Interface) : List SourceLine :=
  Comment.lines 0 i.doc false ++ blockOrEmpty 0 i.header (i.fields.flatMap (Field.lines 1))

def LiteralUnion.lines (u : LiteralUnion) : List SourceLine :=
  [⟨0, "export type " ++ u.name ++ " = " ++ literalList " | " u.literals⟩]

def RuntimeRecord.line (name : String) (r : RuntimeRecord) : SourceLine :=
  ⟨1, propertyKey name ++ ": \x7b unit: " ++ literal r.unit
    ++ ", passive: " ++ (if r.passive then "true" else "false")
    ++ ", trackPerformance: " ++ (if r.trackPerformance then "true" else "false")
    ++ ", requiredMetadata: [" ++ literalList ", " r.requiredMetadata ++ "] \x7d,"⟩

def RuntimeTable.lines (t : RuntimeTable) : List SourceLine :=
  blockOrEmpty 0
    ("export const " ++ Declaration.definitionsTableName ++ ": Record<string, "
      ++ Declaration.definitionShapeName ++ "> =")
    (t.entries.map fun e => e.2.line e.1)

/-- The lines of an accessor, with the empty line behind it. -/
def Accessor.lines (a : Accessor) : List SourceLine :=
  Comment.lines 1 (some a.doc) false
    ++ block 1 ("public get " ++ propertyKey a.metric ++ "(): " ++ Declaration.recorderName ++ "<"
        ++ a.shape ++ ">")
      [⟨2, "return this.getMetric(" ++ literal a.metric ++ ")"⟩]
    ++ [.blank]

def AccessorClass.lines (c : AccessorClass) : List SourceLine :=
  block 0 ("export abstract class " ++ c.name)
    (c.accessors.flatMap Accessor.lines
      ++ [⟨1, "protected abstract getMetric(name: string): " ++ Declaration.recorderName⟩])

namespace Declaration

/-- A type parameter that is bounded by the base type and has it for its default. -/
def boundedBy (name base : String) : String :=
  name ++ "<T extends " ++ base ++ " = " ++ base ++ ">"

def definitionShapeLines : List SourceLine :=
  Comment.lines 0 (some "Runtime description of one metric") false
    ++ block 0 ("export interface " ++ definitionShapeName)
      [⟨1, "readonly unit: string"⟩, ⟨1, "readonly passive: boolean"⟩,
        ⟨1, "readonly trackPerformance: boolean"⟩,
        ⟨1, "readonly requiredMetadata: readonly string[]"⟩]

def shapeMapLines (entries : List (String × String)) : List SourceLine :=
  Comment.lines 0 (some "Metric type of every metric, keyed by metric name") false
    ++ blockOrEmpty 0 ("export interface " ++ shapeMapName)
      (entries.map fun e => ⟨1, "readonly " ++ propertyKey e.1 ++ ": " ++ e.2⟩)

def nameUnionLines : List SourceLine :=
  Comment.lines 0 (some "Name of any defined metric") false
    ++ [⟨0, "export type " ++ nameUnionName ++ " = keyof " ++ shapeMapName⟩]

def metadataOverrideLines (base : String) (overridable : List String) : List SourceLine :=
  let specific := "Omit<T, keyof " ++ base ++ ">"
  let body :=
    if overridable.isEmpty then specific
    else specific ++ " & Pick<" ++ base ++ ", " ++ literalList " | " overridable ++ ">"
  Comment.lines 0 (some "Metadata a caller may pass when recording an instance of `T`") false
    ++ [⟨0, "export type " ++ metadataOverrideName ++ "<T extends " ++ base ++ "> = Partial<"
      ++ body ++ ">"⟩]

def spanLines (base : String) : List SourceLine :=
  Comment.lines 0 (some "Accumulates metadata inside an instrumented callback") false
    ++ block 0 ("export interface " ++ boundedBy spanName base)
      [⟨1, "record(data: Partial<T>): this"⟩]

def recorderLines (base : String) : List SourceLine :=
  Comment.lines 0 (some "Records instances of one metric") false
    ++ block 0 ("export interface " ++ boundedBy recorderName base)
      ([⟨1, "readonly name: string"⟩]
        ++ Comment.lines 1 (some "Records one instance of the metric immediately") false
        ++ [⟨1, "emit(data?: T): void"⟩]
        ++ Comment.lines 1
          (some "Calls `fn` and records the metric once it returns or throws") false
        ++ [⟨1, "run<U>(fn: (span: " ++ spanName ++ "<T>) => U): U"⟩])

def lines : Declaration → List SourceLine
  | interface i => i.lines
  | union u => u.lines
  | definitionShape => definitionShapeLines
  | shapeMap entries => shapeMapLines entries
  | nameUnion => nameUnionLines
  | definitionsTable t => t.lines
  | metadataOverride base overridable => metadataOverrideLines base overridable
  | span base => spanLines base
  | recorder base => recorderLines base
  | accessorBase c => c.lines

end Declaration

namespace Source

def lines (declarations : List Declaration) : List SourceLine :=
  banner.map (⟨0, ·⟩) ++ declarations.flatMap fun d => .blank :: d.lines

def render (declarations : List Declaration) : String := SourceLine.renderAll (lines declarations)

end Source

end TelemetryTypes
