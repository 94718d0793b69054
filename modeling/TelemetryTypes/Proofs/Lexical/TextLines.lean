import TelemetryTypes.Proofs.Lexical.Declarations

/-!
# The lines of a source

What is written as one line is one line of the text: free text is taken apart at its line feeds
where it is a comment, and has them escaped where it stands in quotes. So the text of a source has
the lines of its declarations and no others (`Source.pieces_render`), as long as the names that are
written bare stay on one line.
-/

namespace TelemetryTypes

open Text (literal propertyKey isIdentifier isIdentifierPart)

/-- The characters of a line, without its end. -/
def SourceLine.chars (l : SourceLine) : List Char :=
  List.replicate (4 * l.depth) ' ' ++ l.text.toList

namespace Lexical

open SourceLine (renderAll renderAll_nil renderAll_cons)

/-! ### Texts without line feeds -/

/-- A text that stays on one line. -/
def Unbroken (text : String) : Prop := '\n' ∉ text.toList

instance (text : String) : Decidable (Unbroken text) := inferInstanceAs (Decidable (¬_))

@[simp] theorem unbroken_append_iff {a b : String} :
    Unbroken (a ++ b) ↔ Unbroken a ∧ Unbroken b := by
  rw [Unbroken, String.toList_append, List.mem_append, not_or]
  rfl

theorem Unbroken.append {a b : String} (ha : Unbroken a) (hb : Unbroken b) : Unbroken (a ++ b) :=
  unbroken_append_iff.mpr ⟨ha, hb⟩

theorem Word.unbroken {text : String} (h : Word text) : Unbroken text := by
  intro hmem
  have hpart : isIdentifierPart '\n' = true := word_iff.mp h _ hmem
  exact absurd hpart (by decide)

@[simp] theorem unbroken_literal (value : String) : Unbroken (literal value) :=
  fun hmem => not_control_of_mem_literal hmem List.mem_cons_self

@[simp] theorem unbroken_propertyKey (name : String) : Unbroken (propertyKey name) := by
  unfold Text.propertyKey
  split_ifs with hname
  · exact (word_of_isIdentifier hname).unbroken
  · exact unbroken_literal name

theorem unbroken_literalList {separator : String} (hseparator : Unbroken separator)
    (values : List String) : Unbroken (Source.literalList separator values) := by
  induction values with
  | nil =>
      have hempty : Unbroken "" := by decide
      exact hempty
  | cons value rest ih =>
      cases rest with
      | nil =>
          rw [Source.literalList, List.map_cons, List.map_nil, String.intercalate_singleton]
          exact unbroken_literal value
      | cons next more =>
          rw [Source.literalList, List.map_cons, List.map_cons, String.intercalate_cons_cons]
          exact ((unbroken_literal value).append hseparator).append ih

theorem Unbroken.not_mem_chars {l : SourceLine} (h : Unbroken l.text) : '\n' ∉ l.chars := by
  rw [SourceLine.chars, List.mem_append, not_or]
  exact ⟨fun hblank => (nomatch List.eq_of_mem_replicate hblank), h⟩

/-- Lines that are written as one line each are the lines of their text. -/
theorem pieces_renderAll {lines : List SourceLine} (h : ∀ l ∈ lines, Unbroken l.text) :
    Text.pieces (renderAll lines).toList = lines.map SourceLine.chars ++ [[]] := by
  induction lines with
  | nil => rw [renderAll_nil]; rfl
  | cons l rest ih =>
      rw [List.forall_mem_cons] at h
      have htext : l.render.toList = l.chars ++ ['\n'] := by
        simp [SourceLine.render, SourceLine.chars]
      rw [renderAll_cons, String.toList_append, htext, List.append_assoc, List.singleton_append,
        Text.pieces_lineEnd, Text.pieces_of_not_mem h.1.not_mem_chars, ih h.2]
      rfl

/-! ### Comments -/

theorem mem_of_mem_escapeEnds {chars : List Char} {c : Char}
    (h : c ∈ Comment.escapeEnds chars) : c = '\\' ∨ c ∈ chars := by
  induction chars using Comment.escapeEnds.induct with
  | case1 rest ih =>
      rw [Comment.escapeEnds] at h
      simp only [List.mem_cons] at h ⊢
      rcases h with hstar | hbackslash | hslash | hrest
      · exact .inr (.inl hstar)
      · exact .inl hbackslash
      · exact .inr (.inr (.inl hslash))
      · exact (ih hrest).imp_right fun hmem => .inr (.inr hmem)
  | case2 first rest hends ih =>
      rw [Comment.escapeEnds] at h
      · rcases List.mem_cons.mp h with rfl | hrest
        · exact .inr List.mem_cons_self
        · exact (ih hrest).imp_right (List.mem_cons_of_mem first)
      · exact hends
  | case3 => exact .inr h

theorem Comment.Said.not_mem {chars : List Char} (h : Comment.Said chars) : '\n' ∉ chars := by
  obtain ⟨raw, hraw, rfl⟩ := h
  intro hmem
  have htrimmed := (mem_of_mem_escapeEnds hmem).resolve_left (by decide)
  rw [Text.trimEnd, List.mem_reverse] at htrimmed
  exact hraw (List.mem_reverse.mp ((List.dropWhile_sublist _).subset htrimmed))

/-- A line of a comment: it begins with a slash or a blank and stays on one line. -/
def CommentText (text : String) : Prop :=
  (text.toList.head? = some '/' ∨ text.toList.head? = some ' ') ∧ Unbroken text

instance (text : String) : Decidable (CommentText text) := inferInstanceAs (Decidable (_ ∧ _))

theorem CommentText.append {a b : String} (ha : CommentText a) (hb : Unbroken b) :
    CommentText (a ++ b) := by
  refine ⟨?_, ha.2.append hb⟩
  rw [String.toList_append]
  exact ha.1.imp (fun h => by rw [List.head?_append, h]; rfl) fun h => by
    rw [List.head?_append, h]; rfl

theorem unbroken_ofList {chars : List Char} (h : '\n' ∉ chars) :
    Unbroken (String.ofList chars) := by
  rwa [Unbroken, String.toList_ofList]

theorem commentText_decorated (depth : Nat) {body : List Char} (hbody : '\n' ∉ body) :
    CommentText (Comment.decorated depth body).text := by
  have hbare : CommentText " *" := by decide
  have hframe : CommentText " * " := by decide
  unfold Comment.decorated
  split_ifs
  · exact hbare
  · exact hframe.append (unbroken_ofList hbody)

theorem commentText_of_mem {depth : Nat} {text : Option String} {deprecated : Bool}
    {l : SourceLine} (hl : l ∈ Comment.lines depth text deprecated) : CommentText l.text := by
  have hopen : CommentText "/**" := by decide
  have hend : CommentText " */" := by decide
  obtain hnone | ⟨said, hsaid, hlines⟩ | ⟨middle, hsaid, hlines⟩ :=
    Comment.lines_cases depth text deprecated
  · rw [hnone] at hl
    cases hl
  · have hstart : CommentText "/** " := by decide
    rw [hlines] at hl
    rw [List.mem_singleton.mp hl]
    exact (hstart.append (unbroken_ofList hsaid.not_mem)).append hend.2
  · rw [hlines] at hl
    simp only [List.mem_append, List.mem_singleton, List.mem_map] at hl
    rcases hl with (rfl | ⟨said, hmem, rfl⟩) | rfl
    · exact hopen
    · exact commentText_decorated depth (hsaid said hmem).not_mem
    · exact hend

/-! ### Lines that stay whole -/

/-- Lines that are one line of text each. -/
def Whole (lines : List SourceLine) : Prop := ∀ l ∈ lines, Unbroken l.text

instance (lines : List SourceLine) : Decidable (Whole lines) :=
  inferInstanceAs (Decidable (∀ _ ∈ _, _))

namespace Whole

variable {front back body : List SourceLine} {header text : String}

theorem line (h : Unbroken text) (depth : Nat) : Whole [⟨depth, text⟩] :=
  List.forall_mem_singleton.mpr h

theorem append (hfront : Whole front) (hback : Whole back) : Whole (front ++ back) :=
  List.forall_mem_append.mpr ⟨hfront, hback⟩

theorem flatMap {α : Type} {items : List α} {lines : α → List SourceLine}
    (h : ∀ a ∈ items, Whole (lines a)) : Whole (items.flatMap lines) := by
  intro l hl
  obtain ⟨a, ha, hmem⟩ := List.mem_flatMap.mp hl
  exact h a ha l hmem

theorem comment (depth : Nat) (text : Option String) (deprecated : Bool) :
    Whole (Comment.lines depth text deprecated) := fun _ hl => (commentText_of_mem hl).2

theorem block (hheader : Unbroken header) (hbody : Whole body) (depth : Nat) :
    Whole (Source.block depth header body) := by
  have hopen : Unbroken " \x7b" := by decide
  have hclose : Unbroken "\x7d" := by decide
  exact ((line (hheader.append hopen) depth).append hbody).append (line hclose depth)

theorem blockOrEmpty (hheader : Unbroken header) (hbody : Whole body) (depth : Nat) :
    Whole (Source.blockOrEmpty depth header body) := by
  have hempty : Unbroken " \x7b\x7d" := by decide
  unfold Source.blockOrEmpty
  split_ifs
  · exact line (hheader.append hempty) depth
  · exact block hheader hbody depth

end Whole

end Lexical

open Lexical

theorem Field.whole_lines {f : Field} (htype : Unbroken f.type.text) (depth : Nat) :
    Whole (f.lines depth) := by
  have hmark : Unbroken (if f.optional then "?" else "") := by split_ifs <;> decide
  have hconst : Unbroken "readonly " ∧ Unbroken ": " := by decide
  have htext : Unbroken ("readonly " ++ Text.propertyKey f.name ++ (if f.optional then "?" else "")
      ++ ": " ++ f.type.text) := by
    simp [hmark, htype, hconst]
  exact (Whole.comment depth f.doc f.deprecated).append (.line htext depth)

theorem Interface.whole_lines {i : Interface} (hname : Unbroken i.name)
    (hextends : ∀ base ∈ i.extends?, Unbroken base)
    (htypes : ∀ f ∈ i.fields, Unbroken f.type.text) : Whole i.lines := by
  have hconst : Unbroken "export interface " ∧ Unbroken " extends " ∧ Unbroken "" := by decide
  have hheader : Unbroken i.header := by
    unfold Interface.header
    cases hbase : i.extends? with
    | none => simp [hname, hconst]
    | some base => simp [hname, hconst, hextends base hbase]
  exact (Whole.comment 0 i.doc false).append
    (.blockOrEmpty hheader (.flatMap fun f hf => f.whole_lines (htypes f hf) 1) 0)

theorem RuntimeRecord.whole_line (name : String) (r : RuntimeRecord) : Whole [r.line name] := by
  have hflag (b : Bool) : Unbroken (if b then "true" else "false") := by cases b <;> decide
  have hcomma : Unbroken ", " := by decide
  have hlist := unbroken_literalList hcomma r.requiredMetadata
  refine .line ?_ 1
  simp only [unbroken_append_iff, unbroken_propertyKey, unbroken_literal, hflag, hlist, true_and,
    and_true]
  decide

theorem Accessor.whole_lines {a : Accessor} (hshape : Unbroken a.shape) : Whole a.lines := by
  have hheader : Unbroken ("public get " ++ Text.propertyKey a.metric ++ "(): "
      ++ Declaration.recorderName ++ "<" ++ a.shape ++ ">") := by
    simp only [unbroken_append_iff, unbroken_propertyKey, hshape, and_true]
    decide
  have hreturn : Unbroken ("return this.getMetric(" ++ Text.literal a.metric ++ ")") := by
    simp only [unbroken_append_iff, unbroken_literal, and_true]
    decide
  have hblank : Whole [.blank] := by decide
  exact ((Whole.comment 1 (some a.doc) false).append (.block hheader (.line hreturn 2) 1)).append
    hblank

namespace Declaration

theorem whole_shapeMapLines {entries : List (String × String)}
    (hshapes : ∀ e ∈ entries, Unbroken e.2) : Whole (shapeMapLines entries) := by
  have hconst : Unbroken "readonly " ∧ Unbroken ": " := by decide
  have hentries : Whole (entries.map fun e =>
      ⟨1, "readonly " ++ Text.propertyKey e.1 ++ ": " ++ e.2⟩) := by
    intro l hl
    obtain ⟨e, he, rfl⟩ := List.mem_map.mp hl
    simp [hconst, hshapes e he]
  exact (Whole.comment 0 _ false).append (.blockOrEmpty (by decide) hentries 0)

theorem whole_metadataOverrideLines {base : String} (hbase : Unbroken base)
    (overridable : List String) : Whole (metadataOverrideLines base overridable) := by
  have hbar : Unbroken " | " := by decide
  have hlist := unbroken_literalList hbar overridable
  refine (Whole.comment 0 _ false).append (.line ?_ 0)
  split_ifs
  · simp only [unbroken_append_iff, hbase, and_true]
    decide
  · simp only [unbroken_append_iff, hbase, hlist, and_true]
    decide

theorem unbroken_boundedBy {name base : String} (hname : Unbroken name) (hbase : Unbroken base) :
    Unbroken (boundedBy name base) := by
  simp only [boundedBy, unbroken_append_iff, hname, hbase, true_and, and_true]
  decide

theorem whole_spanLines {base : String} (hbase : Unbroken base) : Whole (spanLines base) := by
  have hexport : Unbroken "export interface " := by decide
  have hheader := hexport.append (unbroken_boundedBy (by decide : Unbroken spanName) hbase)
  exact (Whole.comment 0 _ false).append (.block hheader (by decide) 0)

theorem whole_recorderLines {base : String} (hbase : Unbroken base) :
    Whole (recorderLines base) := by
  have hexport : Unbroken "export interface " := by decide
  have hheader := hexport.append (unbroken_boundedBy (by decide : Unbroken recorderName) hbase)
  have hname : Whole [⟨1, "readonly name: string"⟩] := by decide
  have hemit : Whole [⟨1, "emit(data?: T): void"⟩] := by decide
  have hrun : Whole [⟨1, "run<U>(fn: (span: " ++ spanName ++ "<T>) => U): U"⟩] := by decide
  exact (Whole.comment 0 _ false).append (.block hheader
    ((((hname.append (.comment 1 _ false)).append hemit).append (.comment 1 _ false)).append hrun) 0)

/-- A declaration whose bare names stay on one line is written in lines that do. -/
theorem whole_lines {d : Declaration} (hbare : ∀ name ∈ d.bareNames, Unbroken name) :
    Whole d.lines := by
  cases d with
  | interface i =>
      obtain ⟨hname, hextends, htypes⟩ := forall_bareNames_interface.mp hbare
      exact Interface.whole_lines hname hextends htypes
  | union u =>
      have hbar : Unbroken " | " := by decide
      have hname : Unbroken u.name := hbare u.name (by simp [bareNames])
      refine .line ?_ 0
      simp only [unbroken_append_iff, hname, unbroken_literalList hbar, and_true]
      decide
  | definitionShape => exact (Whole.comment 0 _ false).append (by decide)
  | shapeMap entries => exact whole_shapeMapLines fun e he => hbare e.2 (List.mem_map_of_mem he)
  | nameUnion => exact (Whole.comment 0 _ false).append (by decide)
  | definitionsTable t =>
      refine .blockOrEmpty (by decide) (fun l hl => ?_) 0
      obtain ⟨e, _, rfl⟩ := List.mem_map.mp hl
      exact RuntimeRecord.whole_line e.1 e.2 _ List.mem_cons_self
  | metadataOverride base overridable =>
      exact whole_metadataOverrideLines (hbare base (by simp [bareNames])) overridable
  | span base => exact whole_spanLines (hbare base (by simp [bareNames]))
  | recorder base => exact whole_recorderLines (hbare base (by simp [bareNames]))
  | accessorBase c =>
      obtain ⟨hname, hshapes⟩ := forall_bareNames_accessorBase.mp hbare
      have hclass : Unbroken "export abstract class " := by decide
      have hmethod : Whole
          [⟨1, "protected abstract getMetric(name: string): " ++ Declaration.recorderName⟩] := by
        decide
      exact .block (hclass.append hname)
        ((Whole.flatMap fun a ha => Accessor.whole_lines (hshapes a ha)).append hmethod) 0

end Declaration

/-- The text of a source has the lines of its declarations, and ends with the last of them. -/
theorem Source.pieces_render {declarations : List Declaration}
    (hbare : ∀ d ∈ declarations, ∀ name ∈ d.bareNames, Unbroken name) :
    Text.pieces (render declarations).toList
      = (lines declarations).map SourceLine.chars ++ [[]] := by
  have hbanner : Whole (banner.map (⟨0, ·⟩)) := by decide
  have hblank : Whole [.blank] := by decide
  exact pieces_renderAll (hbanner.append (.flatMap fun d hd =>
    hblank.append (d.whole_lines (hbare d hd))))

end TelemetryTypes
