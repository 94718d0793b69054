import Mathlib.Data.List.Forall2
import TelemetryTypes.Proofs.Lexical.Contents

/-!
# What the lines of a text export

Asked of a text line by line: which of its lines begin with `export`, and what name each of them
introduces. Descriptions and literals may hold the same words, on lines of their own even; in a
source they never come to stand at the margin, so its lines that export something are the headlines
of its declarations (`Source.exports_render`).
-/

namespace TelemetryTypes

open Text (isIdentifierPart)

namespace Lexical

/-- What a line exports: the words that it begins with, and the name behind them. -/
def exported? (line : List Char) : Option (Keyword × String) :=
  Keyword.all.findSome? fun keyword => (keyword.text.toList.isPrefixOf? line).map fun rest =>
    (keyword, String.ofList (rest.takeWhile isIdentifierPart))

/-- Whether a line exports anything. -/
def opensExport (line : List Char) : Bool := "export ".toList.isPrefixOf line

end Lexical

open Lexical

namespace Declaration

variable {d : Declaration}

theorem exported?_headline (hbare : ∀ name ∈ d.bareNames, Word name) :
    exported? d.headline.toList = some (d.keyword, d.name) := by
  have hname := (word_name hbare).takeWhile_append d.isIdentifierPart_ending
  simp only [exported?, isPrefixOf?_headline]
  cases d.keyword <;> simp [Keyword.all, List.findSome?, hname]

theorem opensExport_headline (d : Declaration) : opensExport d.headline.toList = true := by
  have hkeyword : "export ".toList <+: d.keyword.text.toList := by
    cases d.keyword <;> decide
  rw [opensExport, List.isPrefixOf_iff_prefix, headline, String.toList_append,
    String.toList_append, List.append_assoc]
  exact hkeyword.trans (List.prefix_append _ _)

end Declaration

/-- The lines of a source that export something are those of its declarations, in their order. -/
theorem Source.exports_render {declarations : List Declaration}
    (hbare : ∀ d ∈ declarations, ∀ name ∈ d.bareNames, Word name) :
    List.Forall₂ (fun line d => exported? line = some (d.keyword, d.name))
      ((Text.pieces (render declarations).toList).filter opensExport) declarations := by
  have hmargin : ∀ line, opensExport line = true → line.head? = some 'e' := by
    intro line hline
    obtain ⟨rest, rfl⟩ := List.isPrefixOf_iff_prefix.mp hline
    rfl
  have hheadlines : (declarations.map fun d => d.headline.toList).filter opensExport
      = declarations.map fun d => d.headline.toList := by
    rw [List.filter_eq_self]
    intro line hline
    obtain ⟨d, _, rfl⟩ := List.mem_map.mp hline
    exact d.opensExport_headline
  rw [pieces_render fun d hd name hname => (hbare d hd name hname).unbroken, List.filter_append,
    filter_lines hmargin, hheadlines]
  have hend : [([] : List Char)].filter opensExport = [] := rfl
  rw [hend, List.append_nil, List.forall₂_map_left_iff, List.forall₂_same]
  exact fun d hd => Declaration.exported?_headline (hbare d hd)

/-- **A text exports exactly its declarations.** Whatever the descriptions, the values and the names
are, the lines of a generated text that begin with `export` are those of its declarations, one each
and in their order; and the name that such a line introduces is the name of the declaration. -/
theorem export_lines_follow_declarations {d : Definitions} {c : Config} {u : SourceUnit}
    (h : generate d c = .ok u) :
    List.Forall₂ (fun line declaration =>
        exported? line = some (declaration.keyword, declaration.name))
      ((Text.pieces u.render.toList).filter opensExport) u.declarations := by
  obtain ⟨hacceptable, rfl⟩ := (generate_eq_ok_iff_acceptable d c u).mp h
  exact Source.exports_render (Synthesis.word_bareNames_unitOf hacceptable.settings)

/-- A description and a value with lines of their own that look like exported ones. -/
def Definitions.sampleForged : Definitions where
  types := [⟨"result", some "Outcome\nexport type Result = never",
    some ["Succeeded", "\nexport const failed = 1"], none⟩, .bare "awsRegion"]
  metrics := [.bare "lambda_invoke" "Invokes\n*/\nexport interface Forged \x7b\x7d"
    [.requiredTo "result"]]

theorem export_lines_follow_declarations_forged :
    List.Forall₂ (fun line declaration =>
        exported? line = some (declaration.keyword, declaration.name))
      ((Text.pieces (Synthesis.unitOf .sample .sampleForged).render.toList).filter opensExport)
      (Synthesis.unitOf .sample .sampleForged).declarations :=
  export_lines_follow_declarations (d := .sampleForged) (c := .sample) rfl

end TelemetryTypes
