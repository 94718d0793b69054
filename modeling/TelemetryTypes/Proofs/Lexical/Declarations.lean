import TelemetryTypes.Proofs.Lexical.Lines

/-!
# Declarations as they are read

Of every kind of declaration: the names it writes bare, the strings it writes in quotes, and that
its lines are read as code with exactly these strings. The last needs no more than that the bare
names are plain; keys, values and comments may be any text.
-/

namespace TelemetryTypes

open Lexical

namespace Declaration

/-- The strings that a declaration writes in quotes, in order. -/
def quoted : Declaration → List String
  | interface i => i.fields.flatMap fun f => quotedKey f.name
  | union u => u.literals
  | shapeMap entries => entries.flatMap fun e => quotedKey e.1
  | definitionsTable t =>
      t.entries.flatMap fun e => quotedKey e.1 ++ e.2.unit :: e.2.requiredMetadata
  | metadataOverride _ overridable => overridable
  | accessorBase c => c.accessors.flatMap fun a => quotedKey a.metric ++ [a.metric]
  | definitionShape | nameUnion | span _ | recorder _ => []

/-- The names that a declaration is given and writes bare. -/
def bareNames : Declaration → List String
  | interface i => i.name :: i.extends?.toList ++ i.fields.map (·.type.text)
  | union u => [u.name]
  | shapeMap entries => entries.map (·.2)
  | metadataOverride base _ | span base | recorder base => [base]
  | accessorBase c => c.name :: c.accessors.map (·.shape)
  | definitionShape | nameUnion | definitionsTable _ => []

theorem forall_bareNames_interface {P : String → Prop} {i : Interface} :
    (∀ name ∈ (interface i).bareNames, P name)
      ↔ P i.name ∧ (∀ base ∈ i.extends?, P base) ∧ ∀ f ∈ i.fields, P f.type.text := by
  simp [bareNames, or_imp, forall_and]

theorem forall_bareNames_accessorBase {P : String → Prop} {c : AccessorClass} :
    (∀ name ∈ (accessorBase c).bareNames, P name)
      ↔ P c.name ∧ ∀ a ∈ c.accessors, P a.shape := by
  simp [bareNames]

end Declaration

namespace Lexical

/-- A text with no string in it adds none. -/
theorem Reads.followed {outer inner last : List Char} {text next : String} {literals : List String}
    (h : Reads outer text inner literals) (hnext : Reads inner next last []) :
    Reads outer (text ++ next) last literals := by
  have hall := h.append hnext
  rwa [List.append_nil] at hall

theorem ReadsLines.of_forall {lines : List SourceLine} (h : ∀ l ∈ lines, Reads [] l.text [] []) :
    ReadsLines lines [] := by
  induction lines with
  | nil => exact nil
  | cons l rest ih =>
      exact (line (h l List.mem_cons_self) l.depth).append
        (ih fun k hk => h k (List.mem_cons_of_mem l hk))

theorem ReadsLines.blank : ReadsLines [.blank] [] :=
  line (Reads.plain (by decide) []) 0

end Lexical

/-! ### Interfaces and unions -/

theorem Field.reads_text {f : Field} (htype : Plain f.type.text) :
    Reads [] ("readonly " ++ Text.propertyKey f.name ++ (if f.optional then "?" else "") ++ ": "
      ++ f.type.text) [] (quotedKey f.name) := by
  have hkey : Reads [] ("readonly " ++ Text.propertyKey f.name) [] (quotedKey f.name) :=
    (Reads.plain (by decide) []).append (Reads.propertyKey [] f.name)
  have hmark : Plain (if f.optional then "?" else "") := by split_ifs <;> decide
  exact ((hkey.followed (.plain hmark [])).followed
    (.plain (show Plain ": " by decide) [])).followed (.plain htype [])

theorem Field.reads_lines {f : Field} (htype : Plain f.type.text) (depth : Nat) :
    ReadsLines (f.lines depth) (quotedKey f.name) :=
  (ReadsLines.comment depth f.doc f.deprecated).append (.line (f.reads_text htype) depth)

theorem Interface.plain_header {i : Interface} (hname : Plain i.name)
    (hextends : ∀ base ∈ i.extends?, Plain base) : Plain i.header := by
  obtain ⟨name, doc, extends?, fields⟩ := i
  have hexport : Plain "export interface " := by decide
  have hstart : Plain ("export interface " ++ name) := hexport.append hname
  cases extends? with
  | none =>
      have hend : Plain "" := by decide
      exact hstart.append hend
  | some base =>
      have hkeyword : Plain " extends " := by decide
      exact hstart.append (hkeyword.append (hextends base rfl))

theorem Interface.reads_lines {i : Interface} (hname : Plain i.name)
    (hextends : ∀ base ∈ i.extends?, Plain base) (htypes : ∀ f ∈ i.fields, Plain f.type.text) :
    ReadsLines i.lines (i.fields.flatMap fun f => quotedKey f.name) := by
  have hbody : ReadsLines (i.fields.flatMap (Field.lines 1))
      (i.fields.flatMap fun f => quotedKey f.name) :=
    .flatMap fun f hf => f.reads_lines (htypes f hf) 1
  exact (ReadsLines.comment 0 i.doc false).append
    (.blockOrEmpty (.plain (i.plain_header hname hextends) []) hbody 0)

theorem LiteralUnion.reads_lines {u : LiteralUnion} (hname : Plain u.name) :
    ReadsLines u.lines u.literals := by
  have hkeyword : Plain "export type " := by decide
  have hequals : Plain " = " := by decide
  have hbar : Plain " | " := by decide
  have hheader := (hkeyword.append hname).append hequals
  exact .line ((Reads.plain hheader []).append (.literalList hbar [] u.literals)) 0

/-! ### The runtime table -/

theorem RuntimeRecord.reads_line (name : String) (r : RuntimeRecord) :
    ReadsLines [r.line name] (quotedKey name ++ r.unit :: r.requiredMetadata) := by
  have hbool (b : Bool) : Plain (if b then "true" else "false") := by cases b <;> decide
  have hpassive : Plain ", passive: " := by decide
  have htrack : Plain ", trackPerformance: " := by decide
  have hcomma : Plain ", " := by decide
  have hopen : Reads [] ": \x7b unit: " ['\x7d'] [] := by decide
  have hlist : Reads ['\x7d'] ", requiredMetadata: [" [']', '\x7d'] [] := by decide
  have hclose : Reads [']', '\x7d'] "] \x7d," [] [] := by decide
  have hunit := ((Reads.propertyKey [] name).followed hopen).append (.literal ['\x7d'] r.unit)
  have hflag := (hunit.followed (.plain hpassive _)).followed (.plain (hbool r.passive) _)
  have hflags := (hflag.followed (.plain htrack _)).followed (.plain (hbool r.trackPerformance) _)
  have hrequired := (hflags.followed hlist).append (.literalList hcomma _ r.requiredMetadata)
  have htext := hrequired.followed hclose
  rw [List.append_assoc] at htext
  exact .line htext 1

theorem RuntimeTable.reads_lines (t : RuntimeTable) :
    ReadsLines t.lines (Declaration.definitionsTable t).quoted := by
  have hheader : Plain ("export const " ++ Declaration.definitionsTableName ++ ": Record<string, "
      ++ Declaration.definitionShapeName ++ "> =") := by decide
  rw [RuntimeTable.lines, List.map_eq_flatMap]
  exact .blockOrEmpty (.plain hheader []) (.flatMap fun e _ => e.2.reads_line e.1) 0

/-! ### The client class -/

theorem Accessor.reads_header {a : Accessor} (hshape : Plain a.shape) :
    Reads [] ("public get " ++ Text.propertyKey a.metric ++ "(): " ++ Declaration.recorderName ++ "<"
      ++ a.shape ++ ">") [] (quotedKey a.metric) := by
  have hget : Plain "public get " := by decide
  have hcall : Reads [] "(): " [] [] := by decide
  have hrecorder : Plain Declaration.recorderName := by decide
  have hkey : Reads [] ("public get " ++ Text.propertyKey a.metric) [] (quotedKey a.metric) :=
    (Reads.plain hget []).append (.propertyKey [] a.metric)
  exact ((((hkey.followed hcall).followed (.plain hrecorder [])).followed
    (.plain (show Plain "<" by decide) [])).followed (.plain hshape [])).followed
    (.plain (show Plain ">" by decide) [])

theorem Accessor.reads_return (a : Accessor) :
    Reads [] ("return this.getMetric(" ++ Text.literal a.metric ++ ")") [] [a.metric] := by
  have hopen : Reads [] "return this.getMetric(" [')'] [] := by decide
  have hclose : Reads [')'] ")" [] [] := by decide
  exact (hopen.append (.literal [')'] a.metric)).followed hclose

theorem Accessor.reads_lines {a : Accessor} (hshape : Plain a.shape) :
    ReadsLines a.lines (quotedKey a.metric ++ [a.metric]) := by
  have hall := ((ReadsLines.comment 1 (some a.doc) false).append
    (.block (a.reads_header hshape) (.line a.reads_return 2) 1)).append .blank
  rwa [List.nil_append, List.append_nil] at hall

theorem AccessorClass.reads_body {c : AccessorClass} (hshapes : ∀ a ∈ c.accessors, Plain a.shape) :
    ReadsLines (c.accessors.flatMap Accessor.lines
        ++ [⟨1, "protected abstract getMetric(name: string): " ++ Declaration.recorderName⟩])
      (c.accessors.flatMap fun a => quotedKey a.metric ++ [a.metric]) := by
  have hmethod : Reads [] "protected abstract getMetric(name: string): " [] [] := by decide
  have hrecorder : Plain Declaration.recorderName := by decide
  have hall := (ReadsLines.flatMap fun a ha => Accessor.reads_lines (hshapes a ha)).append
    (.line (hmethod.followed (.plain hrecorder [])) 1)
  rwa [List.append_nil] at hall

theorem AccessorClass.reads_lines {c : AccessorClass} (hname : Plain c.name)
    (hshapes : ∀ a ∈ c.accessors, Plain a.shape) :
    ReadsLines c.lines (Declaration.accessorBase c).quoted := by
  have hclass : Plain "export abstract class " := by decide
  exact ReadsLines.block (.plain (hclass.append hname) []) (c.reads_body hshapes) 0

/-! ### The other declarations -/

namespace Declaration

theorem reads_definitionShapeLines : ReadsLines definitionShapeLines [] := by
  have hheader : Reads [] ("export interface " ++ definitionShapeName) [] [] := by decide
  have hbody : ReadsLines [⟨1, "readonly unit: string"⟩, ⟨1, "readonly passive: boolean"⟩,
      ⟨1, "readonly trackPerformance: boolean"⟩,
      ⟨1, "readonly requiredMetadata: readonly string[]"⟩] [] := .of_forall (by decide)
  exact (ReadsLines.comment 0 _ false).append (.block hheader hbody 0)

theorem reads_shape {entry : String × String} (hshape : Plain entry.2) :
    Reads [] ("readonly " ++ Text.propertyKey entry.1 ++ ": " ++ entry.2) [] (quotedKey entry.1) := by
  have hreadonly : Plain "readonly " := by decide
  have hcolon : Plain ": " := by decide
  have hkey : Reads [] ("readonly " ++ Text.propertyKey entry.1) [] (quotedKey entry.1) :=
    (Reads.plain hreadonly []).append (.propertyKey [] entry.1)
  exact (hkey.followed (.plain hcolon [])).followed (.plain hshape [])

theorem reads_shapeMapLines {entries : List (String × String)} (hshapes : ∀ e ∈ entries, Plain e.2) :
    ReadsLines (shapeMapLines entries) (shapeMap entries).quoted := by
  have hheader : Reads [] ("export interface " ++ shapeMapName) [] [] := by decide
  have hbody := ReadsLines.flatMap fun e he => ReadsLines.line (reads_shape (hshapes e he)) 1
  rw [← List.map_eq_flatMap] at hbody
  exact (ReadsLines.comment 0 _ false).append (.blockOrEmpty hheader hbody 0)

theorem reads_nameUnionLines : ReadsLines nameUnionLines [] := by
  have htext : Reads [] ("export type " ++ nameUnionName ++ " = keyof " ++ shapeMapName) [] [] := by
    decide
  exact (ReadsLines.comment 0 _ false).append (.line htext 0)

theorem reads_metadataOverride {base : String} (hbase : Plain base) (overridable : List String) :
    Reads [] ("export type " ++ metadataOverrideName ++ "<T extends " ++ base ++ "> = Partial<"
      ++ (if overridable.isEmpty then "Omit<T, keyof " ++ base ++ ">"
        else "Omit<T, keyof " ++ base ++ ">" ++ " & Pick<" ++ base ++ ", "
          ++ Source.literalList " | " overridable ++ ">") ++ ">") [] overridable := by
  have homit : Plain "Omit<T, keyof " := by decide
  have hpick : Plain " & Pick<" := by decide
  have hcomma : Plain ", " := by decide
  have hbar : Plain " | " := by decide
  have hend : Plain ">" := by decide
  have hspecific := (homit.append hbase).append hend
  have hbody : Reads [] (if overridable.isEmpty then "Omit<T, keyof " ++ base ++ ">"
      else "Omit<T, keyof " ++ base ++ ">" ++ " & Pick<" ++ base ++ ", "
        ++ Source.literalList " | " overridable ++ ">") [] overridable := by
    cases overridable with
    | nil => exact .plain hspecific []
    | cons name rest =>
        have hpicked := ((hspecific.append hpick).append hbase).append hcomma
        exact ((Reads.plain hpicked []).append (.literalList hbar [] (name :: rest))).followed
          (.plain hend [])
  have hname : Plain ("export type " ++ metadataOverrideName ++ "<T extends ") := by decide
  have hequals : Plain "> = Partial<" := by decide
  exact ((Reads.plain ((hname.append hbase).append hequals) []).append hbody).followed
    (.plain hend [])

theorem reads_metadataOverrideLines {base : String} (hbase : Plain base)
    (overridable : List String) :
    ReadsLines (metadataOverrideLines base overridable) overridable :=
  (ReadsLines.comment 0 _ false).append (.line (reads_metadataOverride hbase overridable) 0)

theorem plain_boundedBy {name base : String} (hname : Plain name) (hbase : Plain base) :
    Plain (boundedBy name base) := by
  have hextends : Plain "<T extends " := by decide
  have hdefault : Plain " = " := by decide
  have hend : Plain ">" := by decide
  exact ((((hname.append hextends).append hbase).append hdefault).append hbase).append hend

theorem reads_spanLines {base : String} (hbase : Plain base) : ReadsLines (spanLines base) [] := by
  have hexport : Plain "export interface " := by decide
  have hspan : Plain spanName := by decide
  have hheader := hexport.append (plain_boundedBy hspan hbase)
  have hbody : ReadsLines [⟨1, "record(data: Partial<T>): this"⟩] [] := by decide
  exact (ReadsLines.comment 0 _ false).append (.block (.plain hheader []) hbody 0)

theorem reads_recorderLines {base : String} (hbase : Plain base) :
    ReadsLines (recorderLines base) [] := by
  have hexport : Plain "export interface " := by decide
  have hrecorder : Plain recorderName := by decide
  have hheader := hexport.append (plain_boundedBy hrecorder hbase)
  have hname : ReadsLines [⟨1, "readonly name: string"⟩] [] := by decide
  have hemit : ReadsLines [⟨1, "emit(data?: T): void"⟩] [] := by decide
  have hrun : ReadsLines [⟨1, "run<U>(fn: (span: " ++ spanName ++ "<T>) => U): U"⟩] [] := by decide
  exact (ReadsLines.comment 0 _ false).append (.block (.plain hheader [])
    ((((hname.append (.comment 1 _ false)).append hemit).append (.comment 1 _ false)).append hrun) 0)

/-- The lines of a declaration with plain bare names are read as code with its quoted strings. -/
theorem reads_lines {d : Declaration} (hbare : ∀ name ∈ d.bareNames, Plain name) :
    ReadsLines d.lines d.quoted := by
  cases d with
  | interface i =>
      obtain ⟨hname, hextends, htypes⟩ := forall_bareNames_interface.mp hbare
      exact Interface.reads_lines hname hextends htypes
  | union u => exact LiteralUnion.reads_lines (hbare u.name (by simp [bareNames]))
  | definitionShape => exact reads_definitionShapeLines
  | shapeMap entries => exact reads_shapeMapLines fun e he => hbare e.2 (List.mem_map_of_mem he)
  | nameUnion => exact reads_nameUnionLines
  | definitionsTable t => exact t.reads_lines
  | metadataOverride base overridable =>
      exact reads_metadataOverrideLines (hbare base (by simp [bareNames])) overridable
  | span base => exact reads_spanLines (hbare base (by simp [bareNames]))
  | recorder base => exact reads_recorderLines (hbare base (by simp [bareNames]))
  | accessorBase c =>
      obtain ⟨hname, hshapes⟩ := forall_bareNames_accessorBase.mp hbare
      exact AccessorClass.reads_lines hname hshapes

end Declaration

end TelemetryTypes
