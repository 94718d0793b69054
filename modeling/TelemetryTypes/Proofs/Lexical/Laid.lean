import Mathlib.Data.List.Chain
import TelemetryTypes.Proofs.Lexical.Indentation

/-!
# Lines that are laid out

Lines at a depth are `Laid` out if each is indented as it should be, whatever was read before them,
none ends with a blank, the first is not empty, and no two empty ones follow each other. If the last
one is not empty either, the lines are `Finished`, and an empty line may follow. Laid lines come from
laid lines: a block is finished whatever stands in it, and so every declaration is that ends its
lines with something.
-/

namespace TelemetryTypes

namespace Lexical

open SourceLine (renderAll renderAll_append renderAll_singleton)

/-! ### Empty lines -/

theorem ends_close : Ends "\x7d" := by decide

/-- Lines of which the first is not empty, nor any two that follow each other; an empty line has no
blanks, and any other ends with something else. -/
structure Spaced (lines : List SourceLine) : Prop where
  ends : ∀ l ∈ lines, l = .blank ∨ Ends l.text
  head : ∀ l ∈ lines.head?, Ends l.text
  chain : lines.IsChain fun l next => Ends l.text ∨ Ends next.text

namespace Spaced

variable {front back lines : List SourceLine}

theorem nil : Spaced [] where
  ends := List.forall_mem_nil _
  head l hl := by cases hl
  chain := .nil

theorem singleton {l : SourceLine} (h : Ends l.text) : Spaced [l] where
  ends := List.forall_mem_singleton.mpr (.inr h)
  head l' hl := by
    obtain rfl := Option.some.inj hl
    exact h
  chain := .singleton l

theorem append (hfront : Spaced front) (hback : Spaced back) : Spaced (front ++ back) where
  ends := List.forall_mem_append.mpr ⟨hfront.ends, hback.ends⟩
  head l hl := by
    cases front with
    | nil => exact hback.head l hl
    | cons first rest => exact hfront.head l hl
  chain := List.isChain_append.mpr
    ⟨hfront.chain, hback.chain, fun _ _ next hnext => .inr (hback.head next hnext)⟩

theorem of_ends (h : ∀ l ∈ lines, Ends l.text) : Spaced lines := by
  induction lines with
  | nil => exact nil
  | cons l rest ih =>
      rw [List.forall_mem_cons] at h
      exact (singleton h.1).append (ih h.2)

/-- Behind a line that is not empty there may be one that is. -/
theorem followed {last : SourceLine} (h : Spaced (lines ++ [last])) (hlast : Ends last.text) :
    Spaced (lines ++ [last] ++ [.blank]) where
  ends := List.forall_mem_append.mpr ⟨h.ends, List.forall_mem_singleton.mpr (.inl rfl)⟩
  head l hl := by
    cases lines with
    | nil => exact h.head l hl
    | cons first rest => exact h.head l hl
  chain := by
    refine List.isChain_append.mpr ⟨h.chain, .singleton _, fun l hl _ _ => .inl ?_⟩
    rw [List.getLast?_concat] at hl
    rwa [← Option.some.inj hl]

end Spaced

/-! ### Lines at a depth -/

/-- Lines at a depth as a text should have them. -/
structure Laid (depth : Nat) (lines : List SourceLine) : Prop where
  reads : ∃ literals, ReadsLines lines literals
  aligned : ∀ before, Aligned (nested depth before) lines
  spaced : Spaced lines

structure Finished (depth : Nat) (lines : List SourceLine) : Prop extends Laid depth lines where
  last : ∃ before l, lines = before ++ [l] ∧ Ends l.text

namespace Laid

variable {depth : Nat} {front back : List SourceLine}

theorem nil : Laid depth [] := ⟨⟨[], .nil⟩, fun _ => .nil, .nil⟩

theorem append (hfront : Laid depth front) (hback : Laid depth back) :
    Laid depth (front ++ back) where
  reads := by
    obtain ⟨first, hfirst⟩ := hfront.reads
    obtain ⟨second, hsecond⟩ := hback.reads
    exact ⟨first ++ second, hfirst.append hsecond⟩
  aligned before := by
    obtain ⟨literals, hread⟩ := hfront.reads
    exact .append (hread.leads depth before) (hfront.aligned before) (hback.aligned _)
  spaced := hfront.spaced.append hback.spaced

theorem append_finished (hfront : Laid depth front) (hback : Finished depth back) :
    Finished depth (front ++ back) where
  toLaid := hfront.append hback.toLaid
  last := by
    obtain ⟨before, l, rfl, hends⟩ := hback.last
    exact ⟨front ++ before, l, (List.append_assoc _ _ _).symm, hends⟩

theorem flatMap {α : Type} {items : List α} {lines : α → List SourceLine}
    (h : ∀ a ∈ items, Laid depth (lines a)) : Laid depth (items.flatMap lines) := by
  induction items with
  | nil => exact nil
  | cons a rest ih =>
      rw [List.forall_mem_cons] at h
      rw [List.flatMap_cons]
      exact h.1.append (ih h.2)

theorem comment (depth : Nat) (text : Option String) (deprecated : Bool) :
    Laid depth (Comment.lines depth text deprecated) where
  reads := ⟨[], .comment depth text deprecated⟩
  aligned := aligned_comment depth text deprecated
  spaced := .of_ends fun _ => ends_of_mem_comment

end Laid

namespace Finished

variable {depth : Nat} {lines body : List SourceLine} {header text : String}
  {literals : List String}

theorem line (hread : ReadsLines [⟨depth, text⟩] literals) (hbegins : Begins text)
    (hends : Ends text) : Finished depth [⟨depth, text⟩] where
  reads := ⟨literals, hread⟩
  aligned before := .singleton (indented_code hbegins depth before)
  spaced := .singleton hends
  last := ⟨[], _, rfl, hends⟩

/-- A line whose text is known as it stands. -/
theorem fixed (h : Reads [] text [] [] ∧ Begins text ∧ Ends text) (depth : Nat) :
    Finished depth [⟨depth, text⟩] := line (.line h.1 depth) h.2.1 h.2.2

/-- An empty line is indented everywhere. -/
theorem followed (h : Finished depth lines) : Laid depth (lines ++ [.blank]) where
  reads := by
    obtain ⟨literals, hread⟩ := h.reads
    exact ⟨literals ++ [], hread.append .blank⟩
  aligned before := by
    obtain ⟨literals, hread⟩ := h.reads
    exact .append (hread.leads depth before) (h.aligned before) (.singleton (.inl rfl))
  spaced := by
    obtain ⟨before, l, rfl, hends⟩ := h.last
    exact h.spaced.followed hends

theorem block (hread : Reads [] header [] literals) (hbegins : Begins header)
    (hbody : Laid (depth + 1) body) : Finished depth (Source.block depth header body) where
  reads := by
    obtain ⟨inner, hinner⟩ := hbody.reads
    exact ⟨literals ++ inner, .block hread hinner depth⟩
  aligned before := by
    obtain ⟨inner, hinner⟩ := hbody.reads
    have hopen : Reads [] " \x7b" ['\x7d'] [] := by decide
    have hlead : (nested depth before).Leads (renderAll [⟨depth, header ++ " \x7b"⟩])
        (nested (depth + 1) (before ++ literals)) := by
      have hall := State.Leads.under ((hread.append hopen).render depth)
        (List.replicate depth '\x7d') before
      rw [renderAll_singleton]
      simpa [State.under, nested, List.replicate_succ] using hall
    have hheader := Aligned.singleton (indented_code (hbegins.append " \x7b") depth before)
    rw [Source.block, List.append_assoc]
    exact .append hlead hheader (.append (hinner.leads (depth + 1) _) (hbody.aligned _)
      (.singleton (indented_close depth _)))
  spaced := by
    have hopen : Ends " \x7b" := by decide
    exact ((Spaced.singleton (hopen.append header)).append hbody.spaced).append
      (.singleton ends_close)
  last := ⟨[⟨depth, header ++ " \x7b"⟩] ++ body, ⟨depth, "\x7d"⟩, rfl, ends_close⟩

theorem blockOrEmpty (hread : Reads [] header [] literals) (hbegins : Begins header)
    (hbody : Laid (depth + 1) body) :
    Finished depth (Source.blockOrEmpty depth header body) := by
  have hempty : Reads [] " \x7b\x7d" [] [] := by decide
  have hends : Ends " \x7b\x7d" := by decide
  unfold Source.blockOrEmpty
  split_ifs
  · exact line (.line (hread.append hempty) depth) (hbegins.append _) (hends.append header)
  · exact block hread hbegins hbody

end Finished

end Lexical

open Lexical

open Text (isIdentifier)

/-! ### Declarations -/

theorem Field.finished_lines {f : Field} (htype : isIdentifier f.type.text = true) (depth : Nat) :
    Finished depth (f.lines depth) := by
  have hreadonly : Begins "readonly " := by decide
  have hread := f.reads_text (word_of_isIdentifier htype).plain
  exact (Laid.comment depth f.doc f.deprecated).append_finished
    (.line (.line hread depth) ((((hreadonly.append _).append _).append _).append _)
      ((ends_of_isIdentifier htype).append _))

theorem Interface.finished_lines {i : Interface} (hname : Plain i.name)
    (hextends : ∀ base ∈ i.extends?, Plain base)
    (htypes : ∀ f ∈ i.fields, isIdentifier f.type.text = true) : Finished 0 i.lines := by
  have hexport : Begins "export interface " := by decide
  have hbody := Laid.flatMap fun f hf => (Field.finished_lines (htypes f hf) 1).toLaid
  exact (Laid.comment 0 i.doc false).append_finished (.blockOrEmpty
    (.plain (i.plain_header hname hextends) []) ((hexport.append _).append _) hbody)

theorem LiteralUnion.finished_lines {u : LiteralUnion} (hname : Plain u.name)
    (hliterals : u.literals ≠ []) : Finished 0 u.lines := by
  have hexport : Begins "export type " := by decide
  exact .line (u.reads_lines hname) (((hexport.append _).append _).append _)
    ((ends_literalList " | " hliterals).append _)

theorem RuntimeRecord.finished_line (name : String) (r : RuntimeRecord) :
    Finished 1 [r.line name] := by
  have hclose : Ends "] \x7d," := by decide
  refine .line (r.reads_line name) ?_ (hclose.append _)
  simp only [String.append_assoc]
  exact (begins_propertyKey name).append _

theorem RuntimeTable.finished_lines (t : RuntimeTable) : Finished 0 t.lines := by
  have hheader : Plain ("export const " ++ Declaration.definitionsTableName ++ ": Record<string, "
      ++ Declaration.definitionShapeName ++ "> =") := by decide
  rw [RuntimeTable.lines, List.map_eq_flatMap]
  exact .blockOrEmpty (.plain hheader []) (by decide)
    (.flatMap fun e _ => (e.2.finished_line e.1).toLaid)

theorem Accessor.laid_lines {a : Accessor} (hshape : Plain a.shape) : Laid 1 a.lines := by
  have hget : Begins "public get " := by decide
  have hreturn : Begins "return this.getMetric(" := by decide
  have hclose : Ends ")" := by decide
  have hbody : Finished 2 [⟨2, "return this.getMetric(" ++ Text.literal a.metric ++ ")"⟩] :=
    .line (.line a.reads_return 2) ((hreturn.append _).append _) (hclose.append _)
  refine ((Laid.comment 1 (some a.doc) false).append_finished
    (.block (a.reads_header hshape) ?_ hbody.toLaid)).followed
  simp only [String.append_assoc]
  exact hget.append _

theorem AccessorClass.finished_lines {c : AccessorClass} (hname : Plain c.name)
    (hshapes : ∀ a ∈ c.accessors, Plain a.shape) : Finished 0 c.lines := by
  have hclass : Plain "export abstract class " := by decide
  have hbegins : Begins "export abstract class " := by decide
  have hmethod : Finished 1
      [⟨1, "protected abstract getMetric(name: string): " ++ Declaration.recorderName⟩] :=
    .fixed (by decide) 1
  have hbody := (Laid.flatMap fun a ha => Accessor.laid_lines (hshapes a ha)).append_finished
    hmethod
  exact .block (.plain (hclass.append hname) []) (hbegins.append _) hbody.toLaid

namespace Declaration

theorem finished_definitionShapeLines : Finished 0 definitionShapeLines := by
  have hheader : Reads [] ("export interface " ++ definitionShapeName) [] [] := by decide
  have hfield : ∀ text ∈ ["readonly unit: string", "readonly passive: boolean",
      "readonly trackPerformance: boolean", "readonly requiredMetadata: readonly string[]"],
      Reads [] text [] [] ∧ Begins text ∧ Ends text := by decide
  have hbody := Laid.flatMap fun text hmem => (Finished.fixed (hfield text hmem) 1).toLaid
  exact (Laid.comment 0 _ false).append_finished (.block hheader (by decide) hbody)

theorem finished_shapeMapLines {entries : List (String × String)}
    (hshapes : ∀ e ∈ entries, isIdentifier e.2 = true) : Finished 0 (shapeMapLines entries) := by
  have hheader : Reads [] ("export interface " ++ shapeMapName) [] [] := by decide
  have hreadonly : Begins "readonly " := by decide
  have hbody := Laid.flatMap fun (e : String × String) he =>
    (Finished.line (.line (reads_shape (word_of_isIdentifier (hshapes e he)).plain) 1)
      (((hreadonly.append _).append _).append _)
      ((ends_of_isIdentifier (hshapes e he)).append _)).toLaid
  rw [← List.map_eq_flatMap] at hbody
  exact (Laid.comment 0 _ false).append_finished (.blockOrEmpty hheader (by decide) hbody)

theorem finished_nameUnionLines : Finished 0 nameUnionLines :=
  (Laid.comment 0 _ false).append_finished (.fixed (by decide) 0)

theorem finished_metadataOverrideLines {base : String} (hbase : Plain base)
    (overridable : List String) : Finished 0 (metadataOverrideLines base overridable) := by
  have hexport : Begins "export type " := by decide
  have hend : Ends ">" := by decide
  refine (Laid.comment 0 _ false).append_finished
    (.line (.line (reads_metadataOverride hbase overridable) 0) ?_ (hend.append _))
  simp only [String.append_assoc]
  exact hexport.append _

theorem finished_spanLines {base : String} (hbase : Plain base) : Finished 0 (spanLines base) := by
  have hexport : Plain "export interface " := by decide
  have hbegins : Begins "export interface " := by decide
  have hheader := hexport.append (plain_boundedBy (by decide : Plain spanName) hbase)
  have hbody : Finished 1 [⟨1, "record(data: Partial<T>): this"⟩] := .fixed (by decide) 1
  exact (Laid.comment 0 _ false).append_finished
    (.block (.plain hheader []) (hbegins.append _) hbody.toLaid)

theorem finished_recorderLines {base : String} (hbase : Plain base) :
    Finished 0 (recorderLines base) := by
  have hexport : Plain "export interface " := by decide
  have hbegins : Begins "export interface " := by decide
  have hheader := hexport.append (plain_boundedBy (by decide : Plain recorderName) hbase)
  have hname : Finished 1 [⟨1, "readonly name: string"⟩] := .fixed (by decide) 1
  have hemit : Finished 1 [⟨1, "emit(data?: T): void"⟩] := .fixed (by decide) 1
  have hrun : Finished 1 [⟨1, "run<U>(fn: (span: " ++ spanName ++ "<T>) => U): U"⟩] :=
    .fixed (by decide) 1
  exact (Laid.comment 0 _ false).append_finished (.block (.plain hheader []) (hbegins.append _)
    ((((hname.toLaid.append (.comment 1 _ false)).append hemit.toLaid).append
      (.comment 1 _ false)).append hrun.toLaid))

/-- A declaration that leaves out nothing that its lines end with. -/
def Complete : Declaration → Prop
  | interface i => ∀ f ∈ i.fields, isIdentifier f.type.text = true
  | union u => u.literals ≠ []
  | shapeMap entries => ∀ e ∈ entries, isIdentifier e.2 = true
  | _ => True

theorem finished_lines {d : Declaration} (hbare : ∀ name ∈ d.bareNames, Plain name)
    (hcomplete : d.Complete) : Finished 0 d.lines := by
  cases d with
  | interface i =>
      obtain ⟨hname, hextends, -⟩ := forall_bareNames_interface.mp hbare
      exact Interface.finished_lines hname hextends hcomplete
  | union u => exact LiteralUnion.finished_lines (hbare u.name (by simp [bareNames])) hcomplete
  | definitionShape => exact finished_definitionShapeLines
  | shapeMap entries => exact finished_shapeMapLines hcomplete
  | nameUnion => exact finished_nameUnionLines
  | definitionsTable t => exact t.finished_lines
  | metadataOverride base overridable =>
      exact finished_metadataOverrideLines (hbare base (by simp [bareNames])) overridable
  | span base => exact finished_spanLines (hbare base (by simp [bareNames]))
  | recorder base => exact finished_recorderLines (hbare base (by simp [bareNames]))
  | accessorBase c =>
      obtain ⟨hname, hshapes⟩ := forall_bareNames_accessorBase.mp hbare
      exact AccessorClass.finished_lines hname hshapes

end Declaration

end TelemetryTypes
