import TelemetryTypes.Proofs.Lexical.Declarations
import TelemetryTypes.Proofs.Synthesis.Acceptance

/-!
# Sources as they are read

No text of a definition can change how the rest of a source is read. `scan_render` says so of every
source that comes out of a run: the scanner meets no fault, ends in code with no bracket open, and
has read the strings that the declarations quote, in their order.
-/

namespace TelemetryTypes

open Lexical

namespace Source

theorem reads_lineComment {text : String}
    (h : State.start.Leads text ⟨.lineComment, [], []⟩) : ReadsLines [⟨0, text⟩] [] := by
  have hblanks : State.start.Leads _ State.start := Reads.plain (plain_indentation 0) []
  have hend : (State.mk .lineComment [] []).Leads "\n" State.start := by decide
  rw [ReadsLines, SourceLine.renderAll_singleton]
  exact (hblanks.append h).append hend

theorem reads_of_mem_banner {text : String} (h : text ∈ banner) : ReadsLines [⟨0, text⟩] [] := by
  have hbanner : ∀ text ∈ banner, State.start.Leads text ⟨.lineComment, [], []⟩ := by decide
  exact reads_lineComment (hbanner text h)

theorem reads_banner : ReadsLines (banner.map (⟨0, ·⟩)) [] := by
  have hall := ReadsLines.flatMap fun text (h : text ∈ banner) => reads_of_mem_banner h
  rwa [← List.map_eq_flatMap] at hall

theorem reads_render {declarations : List Declaration}
    (hbare : ∀ d ∈ declarations, ∀ name ∈ d.bareNames, Plain name) :
    Reads [] (render declarations) [] (declarations.flatMap Declaration.quoted) := by
  have hbody := ReadsLines.flatMap fun (d : Declaration) hd =>
    ReadsLines.blank.append (Declaration.reads_lines (hbare d hd))
  exact reads_banner.append hbody

end Source

theorem TypeExpr.word_ofKind (kind : Kind) : Word (ofKind kind).text := by
  cases kind <;> decide

theorem MetadataType.word_target (t : MetadataType) : Word t.target.text := by
  cases hvalues : t.allowedValues with
  | some values =>
      rw [target, target?, hvalues]
      exact word_pascalCase t.name
  | none =>
      rw [target, target?, hvalues]
      cases Kind.declared? t.kind with
      | none =>
          have hstring : Word TypeExpr.string.text := by decide
          exact hstring
      | some kind => exact TypeExpr.word_ofKind kind

namespace Synthesis

variable {c : Config} {d : Definitions}

theorem word_bareNames_baseTypeOf (hsettings : c.Valid) :
    ∀ name ∈ (Declaration.interface (baseTypeOf d.types c)).bareNames, Word name := by
  intro name hname
  rcases List.mem_cons.mp hname with rfl | htype
  · exact word_of_isIdentifier hsettings.baseTypeName
  · obtain ⟨f, hf, rfl⟩ := List.mem_map.mp htype
    rcases List.mem_append.mp hf with hcommon | hclient
    · obtain ⟨common, _, rfl⟩ := List.mem_map.mp hcommon
      exact MetadataType.word_target _
    · obtain ⟨field, _, rfl⟩ := List.mem_map.mp hclient
      exact TypeExpr.word_ofKind field.kind

theorem word_bareNames_interface (hsettings : c.Valid) (m : Metric) :
    ∀ name ∈ (Declaration.interface ((metricOf d.types c m).interface c.baseTypeName)).bareNames,
      Word name := by
  intro name hname
  rcases List.mem_cons.mp hname with rfl | hname
  · exact word_pascalCase m.name
  · rcases List.mem_cons.mp hname with rfl | htype
    · exact word_of_isIdentifier hsettings.baseTypeName
    · obtain ⟨field, hfield, rfl⟩ := List.mem_map.mp htype
      obtain ⟨resolved, hresolved, rfl⟩ := List.mem_map.mp hfield
      obtain ⟨r, _, rfl⟩ := List.mem_map.mp (List.mem_of_mem_filter hresolved)
      exact MetadataType.word_target _

/-- What a source writes bare is an identifier of the settings, a word for a kind, or in Pascal
case. -/
theorem word_bareNames_unitOf (hsettings : c.Valid) :
    ∀ declaration ∈ (unitOf c d).declarations, ∀ name ∈ declaration.bareNames, Word name := by
  have hbase : ∀ name ∈ [c.baseTypeName], Word name := by
    intro name hname
    rw [List.mem_singleton.mp hname]
    exact word_of_isIdentifier hsettings.baseTypeName
  have hshape : ∀ m ∈ metricsOf c d, Word m.typeName := by
    intro m hm
    obtain ⟨metric, _, rfl⟩ := List.mem_map.mp hm
    exact word_pascalCase metric.name
  intro declaration hmem
  simp only [unitOf, assemble, List.mem_append, List.mem_cons, List.mem_map, List.not_mem_nil,
    or_false] at hmem
  rcases hmem with ((rfl | ⟨m, hm, rfl⟩) | ⟨u, hu, rfl⟩)
    | rfl | rfl | rfl | rfl | rfl | rfl | rfl | rfl
  · exact word_bareNames_baseTypeOf hsettings
  · obtain ⟨metric, _, rfl⟩ := List.mem_map.mp hm
    exact word_bareNames_interface hsettings metric
  · obtain ⟨registration, hregistration, rfl⟩ := List.mem_map.mp hu
    obtain ⟨source, _, rfl⟩ := List.mem_map.mp hregistration
    intro name hname
    rw [List.mem_singleton.mp hname]
    exact word_pascalCase source
  · exact fun _ hname => nomatch hname
  · intro name hname
    obtain ⟨entry, hentry, rfl⟩ := List.mem_map.mp hname
    obtain ⟨m, hm, rfl⟩ := List.mem_map.mp hentry
    exact hshape m hm
  · exact fun _ hname => nomatch hname
  · exact fun _ hname => nomatch hname
  · exact hbase
  · exact hbase
  · exact hbase
  · intro name hname
    rcases List.mem_cons.mp hname with rfl | hname
    · exact word_of_isIdentifier hsettings.clientClassName
    · obtain ⟨accessor, haccessor, rfl⟩ := List.mem_map.mp hname
      obtain ⟨m, hm, rfl⟩ := List.mem_map.mp haccessor
      exact hshape m hm

theorem plain_bareNames_unitOf (hsettings : c.Valid) :
    ∀ declaration ∈ (unitOf c d).declarations, ∀ name ∈ declaration.bareNames, Plain name :=
  fun declaration hmem name hname =>
    (word_bareNames_unitOf hsettings declaration hmem name hname).plain

end Synthesis

/-- **Free text stays where it was written.** The text of every source is scanned without a fault,
ends in code, closes every bracket, and has exactly the strings that its declarations quote. -/
theorem scan_render {d : Definitions} {c : Config} {u : SourceUnit} (h : generate d c = .ok u) :
    scan u.render = some ⟨.code, [], u.declarations.flatMap Declaration.quoted⟩ := by
  obtain ⟨hacceptable, rfl⟩ := (generate_eq_ok_iff_acceptable d c u).mp h
  have hbare := Synthesis.plain_bareNames_unitOf hacceptable.settings (d := d)
  exact scan_eq_of_reads (Source.reads_render hbare)

theorem scan_render_sample :
    scan (Synthesis.unitOf .sample .sample).render = some ⟨.code, [],
      ["Succeeded", "Failed", "None", "result", "awsRegion", "lambda_invoke"]⟩ :=
  scan_render generate_sample

end TelemetryTypes
