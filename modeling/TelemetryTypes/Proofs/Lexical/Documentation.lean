import TelemetryTypes.Proofs.Lexical.Source

/-!
# Sources without their documentation

A declaration loses what is said of it and is otherwise the same. The lines that go are comments on
lines of their own, so what is left of the two without comments is the same code.
-/

namespace TelemetryTypes

open Lexical

/-! ### Declarations without documentation -/

def Field.undocumented (f : Field) : Field := { f with doc := none, deprecated := false }

def Interface.undocumented (i : Interface) : Interface :=
  { i with doc := none, fields := i.fields.map Field.undocumented }

def Accessor.undocumented (a : Accessor) : Accessor := { a with doc := "" }

def AccessorClass.undocumented (c : AccessorClass) : AccessorClass :=
  { c with accessors := c.accessors.map Accessor.undocumented }

/-- A declaration with every doc text and every mark of deprecation erased. -/
def Declaration.undocumented : Declaration → Declaration
  | interface i => interface i.undocumented
  | accessorBase c => accessorBase c.undocumented
  | d => d

/-- The same declarations without their documentation. -/
def SourceUnit.undocumented (u : SourceUnit) : SourceUnit :=
  { u with declarations := u.declarations.map Declaration.undocumented }

namespace Lexical

open SourceLine (renderAll renderAll_append renderAll_singleton)

/-! ### The code of lines -/

/-- The code that is left of lines, read between brackets. -/
def codeOf (outer : List Char) (lines : List SourceLine) : List String :=
  codeLines (State.kept ⟨.code, outer, []⟩ (renderAll lines).toList)

theorem codeOf_eq (outer : List Char) (lines : List SourceLine) :
    codeOf outer lines = codeLines (leftBy (fun _ => true) outer lines) :=
  congrArg codeLines (State.kept_eq_keptIn _ _)

theorem codeOf_under {outer inner : List Char} {literals : List String} {lines : List SourceLine}
    (h : Reads outer (renderAll lines) inner literals) (around : List Char) :
    codeOf (outer ++ around) lines = codeOf outer lines :=
  congrArg codeLines (State.kept_under h around [])

theorem codeOf_append {outer inner last : List Char} {first second : List String}
    {front back : List SourceLine} (hfront : Reads outer (renderAll front) inner first)
    (hback : Reads inner (renderAll back) last second) :
    codeOf outer (front ++ back) = codeOf outer front ++ codeOf inner back := by
  simp only [codeOf_eq]
  exact read_leftBy_append codeLines_nil codeLines_lineEnd ⟨rfl, rfl, rfl⟩ hfront hback

/-- A comment leaves a line of blanks, if it leaves a line. -/
theorem codeOf_comment (depth : Nat) (text : Option String) (deprecated : Bool) :
    codeOf [] (Comment.lines depth text deprecated) = [] := by
  rw [codeOf_eq]
  rcases @leftBy_comment (fun _ => true) rfl depth text deprecated with hleft | hleft
  · rw [hleft, codeLines_nil]
  · rw [hleft, codeLines_lineEnd, codeLines_blanks, codeLines_nil]
    rfl

/-! ### The same code -/

/-- Lines that are read with the same strings and leave the same code. -/
structure SameCode (lines lines' : List SourceLine) (literals : List String) : Prop where
  reads : ReadsLines lines literals
  reads' : ReadsLines lines' literals
  code : codeOf [] lines = codeOf [] lines'

namespace SameCode

variable {lines lines' : List SourceLine} {literals : List String}

theorem refl (h : ReadsLines lines literals) : SameCode lines lines literals := ⟨h, h, rfl⟩

theorem append {more more' : List SourceLine} {others : List String}
    (h : SameCode lines lines' literals) (hmore : SameCode more more' others) :
    SameCode (lines ++ more) (lines' ++ more') (literals ++ others) where
  reads := h.reads.append hmore.reads
  reads' := h.reads'.append hmore.reads'
  code := by
    rw [codeOf_append h.reads hmore.reads, codeOf_append h.reads' hmore.reads', h.code, hmore.code]

theorem flatMap {α : Type} {items : List α} {lines lines' : α → List SourceLine}
    {literals : α → List String} (h : ∀ a ∈ items, SameCode (lines a) (lines' a) (literals a)) :
    SameCode (items.flatMap lines) (items.flatMap lines') (items.flatMap literals) := by
  induction items with
  | nil => exact refl .nil
  | cons a rest ih =>
      rw [List.flatMap_cons, List.flatMap_cons, List.flatMap_cons]
      exact (h a List.mem_cons_self).append (ih fun b hb => h b (List.mem_cons_of_mem a hb))

/-- Without a comment before them, lines leave the same code. -/
theorem comment (h : ReadsLines lines literals) (depth : Nat) (text : Option String)
    (deprecated : Bool) :
    SameCode (Comment.lines depth text deprecated ++ lines) lines literals where
  reads := (ReadsLines.comment depth text deprecated).append h
  reads' := h
  code := by
    rw [codeOf_append (ReadsLines.comment depth text deprecated) h, codeOf_comment, List.nil_append]

theorem trans {lines'' : List SourceLine} (h : SameCode lines lines' literals)
    (h' : SameCode lines' lines'' literals) : SameCode lines lines'' literals :=
  ⟨h.reads, h'.reads', h.code.trans h'.code⟩

theorem block {header : String} {first : List String} (hheader : Reads [] header [] first)
    (h : SameCode lines lines' literals) (depth : Nat) :
    SameCode (Source.block depth header lines) (Source.block depth header lines')
      (first ++ literals) where
  reads := .block hheader h.reads depth
  reads' := .block hheader h.reads' depth
  code := by
    have hopen : Reads [] " \x7b" ['\x7d'] [] := by decide
    have hclose : Reads ['\x7d'] "\x7d" [] [] := by decide
    have hfirst : Reads [] (renderAll [⟨depth, header ++ " \x7b"⟩]) ['\x7d'] (first ++ []) := by
      rw [renderAll_singleton]
      exact (hheader.append hopen).render depth
    have hlast : Reads ['\x7d'] (renderAll [⟨depth, "\x7d"⟩]) [] [] := by
      rw [renderAll_singleton]
      exact hclose.render depth
    have hcode (body : List SourceLine) (hbody : ReadsLines body literals) :
        codeOf [] (Source.block depth header body)
          = codeOf [] [⟨depth, header ++ " \x7b"⟩] ++ codeOf [] body
            ++ codeOf ['\x7d'] [⟨depth, "\x7d"⟩] := by
      have hinside := hbody.under ['\x7d']
      have hfront := hfirst.append hinside
      rw [← renderAll_append] at hfront
      rw [Source.block, codeOf_append hfront hlast, codeOf_append hfirst hinside,
        ← codeOf_under hbody ['\x7d']]
      rfl
    rw [hcode lines h.reads, hcode lines' h.reads', h.code]

theorem blockOrEmpty {header : String} {first : List String} (hheader : Reads [] header [] first)
    (h : SameCode lines lines' literals) (hempty : lines = [] ↔ lines' = []) (depth : Nat) :
    SameCode (Source.blockOrEmpty depth header lines) (Source.blockOrEmpty depth header lines')
      (first ++ literals) := by
  by_cases hnil : lines = []
  · obtain rfl : lines' = lines := (hempty.mp hnil).trans hnil.symm
    exact refl (.blockOrEmpty hheader h.reads depth)
  · have hnil' : lines' ≠ [] := fun h' => hnil (hempty.mpr h')
    simpa [Source.blockOrEmpty, hnil, hnil'] using block hheader h depth

end SameCode

end Lexical

/-! ### The code of declarations -/

theorem Field.sameCode_lines {f : Field} (htype : Plain f.type.text) (depth : Nat) :
    SameCode (f.lines depth) (f.undocumented.lines depth) (quotedKey f.name) :=
  .comment (f.undocumented.reads_lines htype depth) depth f.doc f.deprecated

theorem Interface.sameCode_lines {i : Interface} (hname : Plain i.name)
    (hextends : ∀ base ∈ i.extends?, Plain base) (htypes : ∀ f ∈ i.fields, Plain f.type.text) :
    SameCode i.lines i.undocumented.lines (i.fields.flatMap fun f => quotedKey f.name) := by
  have hbody : SameCode (i.fields.flatMap (Field.lines 1))
      (i.undocumented.fields.flatMap (Field.lines 1))
      (i.fields.flatMap fun f => quotedKey f.name) := by
    rw [undocumented, List.flatMap_map]
    exact .flatMap fun f hf => f.sameCode_lines (htypes f hf) 1
  have hempty : i.fields.flatMap (Field.lines 1) = []
      ↔ i.undocumented.fields.flatMap (Field.lines 1) = [] := by
    simp [undocumented, Field.lines, List.flatMap_eq_nil_iff]
  have hblock := SameCode.blockOrEmpty (.plain (i.plain_header hname hextends) []) hbody hempty 0
  exact (SameCode.comment hblock.reads 0 i.doc false).trans hblock

theorem Accessor.sameCode_lines {a : Accessor} (hshape : Plain a.shape) :
    SameCode a.lines a.undocumented.lines (quotedKey a.metric ++ [a.metric]) := by
  have hrest : a.lines = Comment.lines 1 (some a.doc) false ++ a.undocumented.lines :=
    List.append_assoc ..
  rw [hrest]
  exact .comment (a.undocumented.reads_lines hshape) 1 (some a.doc) false

theorem AccessorClass.sameCode_lines {c : AccessorClass} (hname : Plain c.name)
    (hshapes : ∀ a ∈ c.accessors, Plain a.shape) :
    SameCode c.lines c.undocumented.lines (Declaration.accessorBase c).quoted := by
  have hclass : Plain "export abstract class " := by decide
  have hmethod : ReadsLines
      [⟨1, "protected abstract getMetric(name: string): " ++ Declaration.recorderName⟩] [] := by
    decide
  have haccessors : SameCode (c.accessors.flatMap Accessor.lines)
      (c.undocumented.accessors.flatMap Accessor.lines) (Declaration.accessorBase c).quoted := by
    rw [undocumented, List.flatMap_map]
    exact .flatMap fun a ha => a.sameCode_lines (hshapes a ha)
  have hall := SameCode.block (.plain (hclass.append hname) []) (haccessors.append (.refl hmethod)) 0
  rwa [List.nil_append, List.append_nil] at hall

namespace Declaration

theorem sameCode_lines {d : Declaration} (hbare : ∀ name ∈ d.bareNames, Plain name) :
    SameCode d.lines d.undocumented.lines d.quoted := by
  cases d with
  | interface i =>
      obtain ⟨hname, hextends, htypes⟩ := forall_bareNames_interface.mp hbare
      exact Interface.sameCode_lines hname hextends htypes
  | accessorBase c =>
      obtain ⟨hname, hshapes⟩ := forall_bareNames_accessorBase.mp hbare
      exact AccessorClass.sameCode_lines hname hshapes
  | _ => exact .refl (reads_lines hbare)

end Declaration

theorem Source.sameCode_lines {declarations : List Declaration}
    (hbare : ∀ d ∈ declarations, ∀ name ∈ d.bareNames, Plain name) :
    SameCode (lines declarations) (lines (declarations.map Declaration.undocumented))
      (declarations.flatMap Declaration.quoted) := by
  have hbody : SameCode (declarations.flatMap fun d => .blank :: d.lines)
      ((declarations.map Declaration.undocumented).flatMap fun d => .blank :: d.lines)
      (declarations.flatMap Declaration.quoted) := by
    rw [List.flatMap_map]
    exact .flatMap fun d hd => (SameCode.refl ReadsLines.blank).append (d.sameCode_lines (hbare d hd))
  exact (SameCode.refl reads_banner).append hbody

/-- A source and the same without its documentation leave the same code. -/
theorem Source.exists_code {declarations : List Declaration}
    (hbare : ∀ d ∈ declarations, ∀ name ∈ d.bareNames, Plain name) :
    ∃ code, code? (render declarations) = some code
      ∧ code? (render (declarations.map Declaration.undocumented)) = some code := by
  have hsame := sameCode_lines hbare
  have hcode {lines : List SourceLine} {literals : List String} (h : ReadsLines lines literals) :
      code? (SourceLine.renderAll lines) = some (codeOf [] lines) := by
    have hend : (State.mk .code [] literals).pending = [] := rfl
    rw [code?, scan_eq_of_reads h, Option.map_some, hend, List.append_nil]
    rfl
  exact ⟨_, hcode hsame.reads, hsame.code ▸ hcode hsame.reads'⟩

end TelemetryTypes
