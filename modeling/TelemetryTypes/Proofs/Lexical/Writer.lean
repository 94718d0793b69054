import Mathlib.Data.List.Basic
import TelemetryTypes.Proofs.Lexical.Lossless

/-!
# Sources written step by step

The lines of a declaration have their depths by definition. A writer that goes through a source from
front to back has none given: it remembers how deep it is, goes one level in behind a header that
opens a brace and one level out before the brace that closes it, and stays at the margin when it is
told to go out from there.

`Writer` is this writer, and `Declaration.steps` is what it is told for each declaration. `Writes`
says of steps that they come out at the depth where they went in, and go out of every brace from
farther in. It holds of blocks and of sequences when it holds of their parts, so the writer never
goes out from the margin, and what it writes for a declaration depends on nothing before it.
-/

namespace TelemetryTypes

open Source (literalList)
open SourceLine (renderAll renderAll_append renderAll_singleton)

/-- A text under way, and how deep the next line stands. -/
structure Writer where
  out : String
  depth : Nat

namespace Writer

inductive Step where
  /-- An empty line. -/
  | blank
  | line (text : String)
  /-- A header that opens a brace. -/
  | enter (header : String)
  /-- The brace that closes. -/
  | leave
  deriving DecidableEq

def put (w : Writer) (l : SourceLine) : Writer := { w with out := w.out ++ l.render }

/-- One step. Going out from the margin leads nowhere. -/
def step (w : Writer) : Step → Writer
  | .blank => w.put .blank
  | .line text => w.put ⟨w.depth, text⟩
  | .enter header => { w.put ⟨w.depth, header ++ " \x7b"⟩ with depth := w.depth + 1 }
  | .leave => { w.put ⟨w.depth - 1, "\x7d"⟩ with depth := w.depth - 1 }

def run (w : Writer) (steps : List Step) : Writer := steps.foldl step w

/-- A header and what stands between its braces, which close at once if there is nothing. -/
def Step.block (header : String) (body : List Step) : List Step := .enter header :: body ++ [.leave]

def Step.blockOrEmpty (header : String) (body : List Step) : List Step :=
  if body.isEmpty then [.line (header ++ " \x7b\x7d")] else block header body

/-- The lines of a doc comment, at whatever depth. -/
def Step.comment (text : Option String) (deprecated : Bool) : List Step :=
  (Comment.lines 0 text deprecated).map fun l => .line l.text

/-- Where a source starts: behind its banner, at the margin. -/
def start : Writer := ⟨"\n".intercalate Source.banner ++ "\n", 0⟩

end Writer

open Writer (Step)

/-! ### What the writer is told -/

def Field.steps (f : Field) : List Step :=
  Step.comment f.doc f.deprecated
    ++ [.line ("readonly " ++ Text.propertyKey f.name ++ (if f.optional then "?" else "") ++ ": "
      ++ f.type.text)]

def Interface.steps (i : Interface) : List Step :=
  Step.comment i.doc false ++ Step.blockOrEmpty i.header (i.fields.flatMap Field.steps)

def LiteralUnion.steps (u : LiteralUnion) : List Step :=
  [.line ("export type " ++ u.name ++ " = " ++ literalList " | " u.literals)]

def RuntimeTable.steps (t : RuntimeTable) : List Step :=
  Step.blockOrEmpty
    ("export const " ++ Declaration.definitionsTableName ++ ": Record<string, "
      ++ Declaration.definitionShapeName ++ "> =")
    (t.entries.map fun e => .line (e.2.line e.1).text)

def Accessor.steps (a : Accessor) : List Step :=
  Step.comment (some a.doc) false
    ++ Step.block ("public get " ++ Text.propertyKey a.metric ++ "(): " ++ Declaration.recorderName
        ++ "<" ++ a.shape ++ ">")
      [.line ("return this.getMetric(" ++ Text.literal a.metric ++ ")")]
    ++ [.blank]

def AccessorClass.steps (c : AccessorClass) : List Step :=
  Step.block ("export abstract class " ++ c.name)
    (c.accessors.flatMap Accessor.steps
      ++ [.line ("protected abstract getMetric(name: string): " ++ Declaration.recorderName)])

namespace Declaration

def definitionShapeSteps : List Step :=
  Step.comment (some "Runtime description of one metric") false
    ++ Step.block ("export interface " ++ definitionShapeName)
      [.line "readonly unit: string", .line "readonly passive: boolean",
        .line "readonly trackPerformance: boolean",
        .line "readonly requiredMetadata: readonly string[]"]

def shapeMapSteps (entries : List (String × String)) : List Step :=
  Step.comment (some "Metric type of every metric, keyed by metric name") false
    ++ Step.blockOrEmpty ("export interface " ++ shapeMapName)
      (entries.map fun e => .line ("readonly " ++ Text.propertyKey e.1 ++ ": " ++ e.2))

def nameUnionSteps : List Step :=
  Step.comment (some "Name of any defined metric") false
    ++ [.line ("export type " ++ nameUnionName ++ " = keyof " ++ shapeMapName)]

def metadataOverrideSteps (base : String) (overridable : List String) : List Step :=
  let specific := "Omit<T, keyof " ++ base ++ ">"
  let body :=
    if overridable.isEmpty then specific
    else specific ++ " & Pick<" ++ base ++ ", " ++ literalList " | " overridable ++ ">"
  Step.comment (some "Metadata a caller may pass when recording an instance of `T`") false
    ++ [.line ("export type " ++ metadataOverrideName ++ "<T extends " ++ base ++ "> = Partial<"
      ++ body ++ ">")]

def spanSteps (base : String) : List Step :=
  Step.comment (some "Accumulates metadata inside an instrumented callback") false
    ++ Step.block ("export interface " ++ boundedBy spanName base)
      [.line "record(data: Partial<T>): this"]

def recorderSteps (base : String) : List Step :=
  Step.comment (some "Records instances of one metric") false
    ++ Step.block ("export interface " ++ boundedBy recorderName base)
      ([.line "readonly name: string"]
        ++ Step.comment (some "Records one instance of the metric immediately") false
        ++ [.line "emit(data?: T): void"]
        ++ Step.comment (some "Calls `fn` and records the metric once it returns or throws") false
        ++ [.line ("run<U>(fn: (span: " ++ spanName ++ "<T>) => U): U")])

def steps : Declaration → List Step
  | interface i => i.steps
  | union u => u.steps
  | definitionShape => definitionShapeSteps
  | shapeMap entries => shapeMapSteps entries
  | nameUnion => nameUnionSteps
  | definitionsTable t => t.steps
  | metadataOverride base overridable => metadataOverrideSteps base overridable
  | span base => spanSteps base
  | recorder base => recorderSteps base
  | accessorBase c => c.steps

end Declaration

/-- Behind the banner, every declaration has an empty line before it. -/
def Source.steps (declarations : List Declaration) : List Step :=
  declarations.flatMap fun d => .blank :: d.steps

namespace Writer

theorem run_append (w : Writer) (front back : List Step) :
    w.run (front ++ back) = (w.run front).run back :=
  List.foldl_append

theorem run_cons (w : Writer) (s : Step) (steps : List Step) :
    w.run (s :: steps) = (w.step s).run steps := rfl

/-! ### Steps that come out where they went in -/

/-- Steps that write, from every depth, the lines for that depth, come out where they went in, and
go out from farther in only. -/
structure Writes (steps : List Step) (lines : Nat → List SourceLine) : Prop where
  run_eq : ∀ w : Writer, w.run steps = ⟨w.out ++ renderAll (lines w.depth), w.depth⟩
  within : ∀ (w : Writer) (before after : List Step), steps = before ++ .leave :: after →
    w.depth < (w.run before).depth
  isEmpty_eq : ∀ depth, (lines depth).isEmpty = steps.isEmpty

namespace Writes

variable {steps more body : List Step} {lines others inner : Nat → List SourceLine}

theorem nil : Writes [] fun _ => [] where
  run_eq w := by rw [SourceLine.renderAll_nil, String.append_empty]; rfl
  within _ _ _ h := by simp at h
  isEmpty_eq _ := rfl

/-- A step that writes a line and stays where it is. -/
theorem singleton {s : Step} {line : Nat → SourceLine} (hs : s ≠ .leave)
    (h : ∀ w : Writer, w.step s = w.put (line w.depth)) : Writes [s] fun depth => [line depth] where
  run_eq w := by
    rw [renderAll_singleton]
    exact h w
  within w before after hsplit := by
    have hmem : Step.leave ∈ [s] := by rw [hsplit]; simp
    exact absurd (List.mem_singleton.mp hmem).symm hs
  isEmpty_eq _ := rfl

theorem line (text : String) : Writes [.line text] fun depth => [⟨depth, text⟩] :=
  singleton (by simp) fun _ => rfl

theorem blank : Writes [.blank] fun _ => [.blank] :=
  singleton (by simp) fun _ => rfl

theorem append (h : Writes steps lines) (hmore : Writes more others) :
    Writes (steps ++ more) fun depth => lines depth ++ others depth where
  run_eq w := by
    rw [run_append, h.run_eq, hmore.run_eq, renderAll_append, String.append_assoc]
  within w before after hsplit := by
    rcases append_eq_append_cons hsplit with ⟨rest, hsteps⟩ | ⟨rest, rfl, hrest⟩
    · exact h.within w before rest hsteps
    · rw [run_append, h.run_eq]
      exact hmore.within ⟨w.out ++ renderAll (lines w.depth), w.depth⟩ rest after hrest
  isEmpty_eq depth := by
    rw [Bool.eq_iff_iff]
    simp only [List.isEmpty_iff, List.append_eq_nil_iff]
    simp only [← List.isEmpty_iff, h.isEmpty_eq, hmore.isEmpty_eq]

theorem flatMap {α : Type} {steps : α → List Step} {lines : α → Nat → List SourceLine}
    (h : ∀ a, Writes (steps a) (lines a)) (items : List α) :
    Writes (items.flatMap steps) fun depth => items.flatMap fun a => lines a depth := by
  induction items with
  | nil => exact nil
  | cons a rest ih =>
      simp only [List.flatMap_cons]
      exact (h a).append ih

theorem map {α : Type} (text : α → String) (items : List α) :
    Writes (items.map fun a => .line (text a)) fun depth => items.map fun a => ⟨depth, text a⟩ := by
  simp only [List.map_eq_flatMap]
  exact flatMap (fun a => line (text a)) items

theorem comment (text : Option String) (deprecated : Bool) :
    Writes (Step.comment text deprecated) fun depth => Comment.lines depth text deprecated := by
  have hdepth (depth : Nat) : Comment.lines depth text deprecated
      = (Comment.lines 0 text deprecated).map fun l => ⟨depth, l.text⟩ := by
    unfold Comment.lines
    split
    · rfl
    · rfl
    · rfl
    · simp only [List.map_append, List.map_map, apply_ite (List.map _)]
      rfl
  have hlines : (fun depth => Comment.lines depth text deprecated)
      = fun depth => (Comment.lines 0 text deprecated).map fun l => ⟨depth, l.text⟩ :=
    funext hdepth
  rw [hlines]
  exact map SourceLine.text _

/-- What stands between braces is one level farther in. -/
theorem block (header : String) (h : Writes body inner) :
    Writes (Step.block header body) fun depth => Source.block depth header (inner (depth + 1)) where
  run_eq w := by
    rw [Step.block, List.cons_append, run_cons, run_append, h.run_eq, Source.block,
      renderAll_append, renderAll_append, renderAll_singleton, renderAll_singleton]
    simp [run, step, put, String.append_assoc]
  within w before after hsplit := by
    cases before with
    | nil => cases (List.cons.inj hsplit).1
    | cons s rest =>
        obtain ⟨rfl, hbody⟩ := List.cons.inj hsplit
        rw [run_cons]
        rcases append_eq_append_cons hbody with ⟨more, hmore⟩ | ⟨more, rfl, hmore⟩
        · exact Nat.lt_of_succ_lt (h.within (w.step (.enter header)) rest more hmore)
        · -- The last brace is met where the header led.
          obtain rfl : more = [] := by
            rcases List.singleton_eq_append_iff.mp hmore with ⟨hnone, -⟩ | ⟨-, hcons⟩
            · exact hnone
            · cases hcons
          rw [List.append_nil, h.run_eq]
          exact Nat.lt_succ_self w.depth
  isEmpty_eq _ := rfl

theorem blockOrEmpty (header : String) (h : Writes body inner) :
    Writes (Step.blockOrEmpty header body)
      fun depth => Source.blockOrEmpty depth header (inner (depth + 1)) := by
  unfold Step.blockOrEmpty Source.blockOrEmpty
  simp only [h.isEmpty_eq]
  split_ifs
  · exact line _
  · exact block header h

end Writes

end Writer

open Writer (Writes)

/-! ### Declarations -/

theorem Field.writes (f : Field) : Writes f.steps f.lines :=
  (Writes.comment f.doc f.deprecated).append (.line _)

theorem Accessor.writes (a : Accessor) : ∃ lines, Writes a.steps lines ∧ lines 1 = a.lines :=
  ⟨_, ((Writes.comment (some a.doc) false).append (.block _ (.line _))).append .blank, rfl⟩

theorem AccessorClass.writes (c : AccessorClass) :
    ∃ lines, Writes c.steps lines ∧ lines 0 = c.lines := by
  choose lines hwrites hlines using Accessor.writes
  refine ⟨_, .block _ ((Writes.flatMap hwrites c.accessors).append (.line _)), ?_⟩
  simp only [hlines]
  rfl

namespace Declaration

/-- Every declaration is written at whatever depth, and at the margin in the lines that it has. -/
theorem writes (d : Declaration) : ∃ lines, Writes d.steps lines ∧ lines 0 = d.lines := by
  cases d with
  | interface i =>
      exact ⟨_, (Writes.comment i.doc false).append
        (.blockOrEmpty i.header (.flatMap Field.writes i.fields)), rfl⟩
  | union u => exact ⟨_, .line _, rfl⟩
  | definitionShape =>
      have hbody := Writes.map id ["readonly unit: string", "readonly passive: boolean",
        "readonly trackPerformance: boolean", "readonly requiredMetadata: readonly string[]"]
      exact ⟨_, (Writes.comment _ false).append (.block _ hbody), rfl⟩
  | shapeMap entries =>
      exact ⟨_, (Writes.comment _ false).append (.blockOrEmpty _ (.map _ entries)), rfl⟩
  | nameUnion => exact ⟨_, (Writes.comment _ false).append (.line _), rfl⟩
  | definitionsTable t => exact ⟨_, .blockOrEmpty _ (.map _ t.entries), rfl⟩
  | metadataOverride base overridable =>
      exact ⟨_, (Writes.comment _ false).append (.line _), rfl⟩
  | span base => exact ⟨_, (Writes.comment _ false).append (.block _ (.line _)), rfl⟩
  | recorder base =>
      exact ⟨_, (Writes.comment _ false).append (.block _
        (((((Writes.line _).append (.comment _ false)).append (.line _)).append
          (.comment _ false)).append (.line _))), rfl⟩
  | accessorBase c => exact c.writes

end Declaration

namespace Source

theorem writes_steps (declarations : List Declaration) :
    ∃ lines, Writes (steps declarations) lines
      ∧ lines 0 = declarations.flatMap fun d => .blank :: d.lines := by
  choose lines hwrites hlines using Declaration.writes
  refine ⟨_, .flatMap (fun d => Writes.blank.append (hwrites d)) declarations, ?_⟩
  simp only [hlines]
  rfl

theorem renderAll_banner :
    renderAll (banner.map (⟨0, ·⟩)) = "\n".intercalate banner ++ "\n" := by
  simp [banner, SourceLine.renderAll_cons, SourceLine.renderAll_nil, SourceLine.render,
    String.intercalate_cons_cons]

/-- Behind its banner a source says for each declaration what that declaration says alone. -/
theorem render_eq (declarations : List Declaration) :
    render declarations = "\n".intercalate banner ++ "\n"
      ++ renderAll (declarations.flatMap fun d => .blank :: d.lines) := by
  rw [render, lines, renderAll_append, renderAll_banner]

/-- The writer writes the source. -/
theorem run_steps (declarations : List Declaration) :
    Writer.start.run (steps declarations) = ⟨render declarations, 0⟩ := by
  obtain ⟨lines, hwrites, hlines⟩ := writes_steps declarations
  rw [hwrites.run_eq, Writer.start, hlines, render_eq]

end Source

/-- **Sources are put together from front to back.** A source of two lists of declarations is the
source of the first, followed by the source of the second without its banner. The writer comes to
the same text: whatever it has written and however deep it is, it comes out of a declaration where
it went in, having added a text that hangs on the declaration and the depth alone; and no brace is
closed at the margin, in no declaration and in no source. -/
theorem rendering_composes :
    (∀ front back : List Declaration, ∃ rest,
        Source.render back = "\n".intercalate Source.banner ++ "\n" ++ rest
          ∧ Source.render (front ++ back) = Source.render front ++ rest)
      ∧ (∀ declarations : List Declaration,
        Writer.start.run (Source.steps declarations) = ⟨Source.render declarations, 0⟩
          ∧ ∀ before after, Source.steps declarations = before ++ .leave :: after →
            0 < (Writer.start.run before).depth)
      ∧ ∀ d : Declaration,
        (∃ text : Nat → String, text 0 = d.text
            ∧ ∀ w : Writer, w.run d.steps = ⟨w.out ++ text w.depth, w.depth⟩)
          ∧ ∀ (w : Writer) (before after : List Step), d.steps = before ++ .leave :: after →
            w.depth < (w.run before).depth := by
  refine ⟨fun front back => ?_, fun declarations => ⟨Source.run_steps declarations, ?_⟩,
    fun d => ?_⟩
  · exact ⟨_, Source.render_eq back, Source.render_append front back⟩
  · obtain ⟨lines, hwrites, -⟩ := Source.writes_steps declarations
    exact hwrites.within Writer.start
  · obtain ⟨lines, hwrites, hlines⟩ := d.writes
    exact ⟨⟨fun depth => renderAll (lines depth), congrArg renderAll hlines,
      hwrites.run_eq⟩, hwrites.within⟩

end TelemetryTypes
