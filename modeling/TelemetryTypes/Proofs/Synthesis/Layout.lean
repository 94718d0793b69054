import TelemetryTypes.Proofs.Command.Generating
import TelemetryTypes.Proofs.Lexical.Laid
import TelemetryTypes.Proofs.Lexical.Lossless
import TelemetryTypes.Proofs.Synthesis.Legality

/-!
# The layout of a source

What a reader sees of a source beside its words: how far its lines are indented, where they end, and
where they are empty. `Source.LaidOut` asks it of the text: the state in which a line begins is that
of the scanner behind the lines before it.

A source has this layout if its declarations are complete (`Source.laidOut_render`). A union without
values would end with a blank, and so would a property whose type has no name; accepted documents
give neither.
-/

namespace TelemetryTypes

open Lexical
open SourceLine (renderAll renderAll_append renderAll_cons renderAll_singleton)
open Text (isBlank isIdentifier)

/-! ### The layout of a text -/

/-- A text that ends with a line end, and not with an empty line. -/
def Lexical.EndsOnce (text : String) : Prop :=
  ∃ before c, text.toList = before ++ [c, '\n'] ∧ c ≠ '\n'

/-- A text laid out as the source of declarations should be. -/
structure Source.LaidOut (text : String) (declarations : List Declaration) : Prop where
  /-- Every line is indented as the lines before it have it. -/
  indented : ∀ before line after, Text.pieces text.toList = before ++ line :: after →
    ∃ s, State.start.run (before.flatMap (· ++ ['\n'])) = some s ∧ Indented s line
  trimmed : ∀ line ∈ Text.pieces text.toList, ∀ c ∈ line.getLast?, isBlank c = false
  /-- No two empty lines follow each other. -/
  spaced : (Text.pieces text.toList).IsChain fun line next => line ≠ [] ∨ next ≠ []
  /-- Before every declaration there is an empty line, and before that there is none. -/
  separated : ∀ front d back, declarations = front ++ d :: back →
    (∃ rest, text = render front ++ "\n" ++ d.text ++ rest) ∧ EndsOnce (render front)
      ∧ ∃ c rest, d.text.toList = c :: rest ∧ c ≠ '\n'
  endsOnce : EndsOnce text

/-! ### Lines and their text -/

theorem SourceLine.toList_renderAll (lines : List SourceLine) :
    (renderAll lines).toList = (lines.map chars).flatMap (· ++ ['\n']) := by
  induction lines with
  | nil => rfl
  | cons l rest ih =>
      rw [renderAll_cons, String.toList_append, ih, List.map_cons, List.flatMap_cons]
      simp [render, chars]

namespace Lexical

theorem Ends.chars {l : SourceLine} (h : Ends l.text) :
    ∃ before c, l.chars = before ++ [c] ∧ isBlank c = false := by
  obtain ⟨before, c, htext, hc⟩ := ends_iff.mp h
  exact ⟨List.replicate (4 * l.depth) ' ' ++ before, c, by rw [SourceLine.chars, htext,
    List.append_assoc], hc⟩

theorem Ends.chars_ne_nil {l : SourceLine} (h : Ends l.text) : l.chars ≠ [] := by
  obtain ⟨before, c, hchars, -⟩ := h.chars
  rw [hchars]
  simp

theorem Spaced.trimmed {lines : List SourceLine} (h : Spaced lines) {l : SourceLine}
    (hl : l ∈ lines) : ∀ c ∈ l.chars.getLast?, isBlank c = false := by
  intro c hc
  rcases h.ends l hl with rfl | hends
  · cases hc
  · obtain ⟨before, last, hchars, hlast⟩ := hends.chars
    rw [hchars, List.getLast?_concat] at hc
    rwa [← Option.some.inj hc]

namespace Finished

variable {lines others : List SourceLine}

theorem endsOnce {depth : Nat} (h : Finished depth lines) : EndsOnce (renderAll lines) := by
  obtain ⟨before, l, rfl, hends⟩ := h.last
  obtain ⟨front, c, hchars, hc⟩ := hends.chars
  refine ⟨(renderAll before).toList ++ front, c, ?_, ?_⟩
  · rw [renderAll_append, String.toList_append, SourceLine.toList_renderAll [l]]
    simp [hchars]
  · rintro rfl
    exact absurd hc (by decide)

theorem begins {depth : Nat} (h : Finished depth lines) (hwhole : Whole lines) :
    ∃ c rest, (renderAll lines).toList = c :: rest ∧ c ≠ '\n' := by
  obtain ⟨before, last, hlast, -⟩ := h.last
  cases lines with
  | nil => simp at hlast
  | cons l more =>
      have hbreak := (hwhole l List.mem_cons_self).not_mem_chars
      cases hchars : l.chars with
      | nil => exact absurd hchars (h.spaced.head l rfl).chars_ne_nil
      | cons c rest =>
          refine ⟨c, rest ++ '\n' :: (renderAll more).toList, ?_, ?_⟩
          · simp [SourceLine.toList_renderAll, hchars]
          · rintro rfl
            exact hbreak (hchars ▸ List.mem_cons_self)

/-- The lines of the text are not empty one after the other, up to its end. -/
theorem isChain_pieces {depth : Nat} (h : Finished depth lines) :
    (lines.map SourceLine.chars ++ [[]]).IsChain fun line next => line ≠ [] ∨ next ≠ [] := by
  refine List.isChain_append.mpr ⟨?_, .singleton _, fun line hline _ _ => .inl ?_⟩
  · rw [List.isChain_map]
    exact h.spaced.chain.imp fun _ _ hends => hends.imp Ends.chars_ne_nil Ends.chars_ne_nil
  · obtain ⟨before, l, rfl, hends⟩ := h.last
    rw [List.map_append, List.map_singleton, List.getLast?_concat] at hline
    rw [← Option.some.inj hline]
    exact hends.chars_ne_nil

/-- Every line of the text begins in a state in which it is indented. -/
theorem indented (h : Finished 0 lines) {before after : List (List Char)} {line : List Char}
    (hsplit : lines.map SourceLine.chars ++ [[]] = before ++ line :: after) :
    ∃ s, State.start.run (before.flatMap (· ++ ['\n'])) = some s ∧ Indented s line := by
  rcases append_eq_append_cons hsplit with ⟨rest, hlines⟩ | ⟨rest, rfl, hrest⟩
  · obtain ⟨front, back, rfl, rfl, hback⟩ := List.map_eq_append_iff.mp hlines
    obtain ⟨l, more, rfl, rfl, -⟩ := List.map_eq_cons_iff.mp hback
    obtain ⟨s, hlead, hindented⟩ := h.aligned [] front l more rfl
    rw [State.Leads, SourceLine.toList_renderAll] at hlead
    exact ⟨s, hlead, hindented⟩
  · -- Behind the last line end the text has no more, and all braces are closed.
    rcases List.singleton_eq_append_iff.mp hrest with ⟨rfl, hline⟩ | ⟨-, hnone⟩
    · obtain ⟨literals, hread⟩ := h.reads
      obtain ⟨rfl, -⟩ := List.cons.inj hline
      rw [ReadsLines, Reads, State.Leads, SourceLine.toList_renderAll] at hread
      rw [List.append_nil]
      exact ⟨_, hread, .inl rfl⟩
    · cases hnone

end Finished

end Lexical

namespace Source

theorem finished_banner : Finished 0 (banner.map (⟨0, ·⟩)) := by
  have hfirst : Finished 0 [⟨0, banner.head (by decide)⟩] :=
    .line (reads_of_mem_banner (by decide)) (by decide) (by decide)
  have hsecond : Finished 0 [⟨0, banner.getLast (by decide)⟩] :=
    .line (reads_of_mem_banner (by decide)) (by decide) (by decide)
  exact hfirst.toLaid.append_finished hsecond

theorem finished_lines {declarations : List Declaration}
    (h : ∀ d ∈ declarations, Finished 0 d.lines) : Finished 0 (lines declarations) := by
  -- By induction from the end: an empty line may follow what is finished.
  induction declarations using List.reverseRecOn with
  | nil => exact finished_banner
  | append_singleton front d ih =>
      rw [List.forall_mem_append, List.forall_mem_singleton] at h
      have hfront := (ih h.1).followed.append_finished h.2
      rw [lines_append, List.flatMap_singleton]
      rwa [List.append_assoc] at hfront

theorem laidOut_render {declarations : List Declaration}
    (hbare : ∀ d ∈ declarations, ∀ name ∈ d.bareNames, Word name)
    (hcomplete : ∀ d ∈ declarations, d.Complete) : LaidOut (render declarations) declarations := by
  have hunbroken : ∀ d ∈ declarations, ∀ name ∈ d.bareNames, Unbroken name :=
    fun d hd name hname => (hbare d hd name hname).unbroken
  have hfinished : ∀ d ∈ declarations, Finished 0 d.lines := fun d hd =>
    d.finished_lines (fun name hname => (hbare d hd name hname).plain) (hcomplete d hd)
  have hall := finished_lines hfinished
  have hpieces := pieces_render hunbroken
  constructor
  case indented =>
    rw [hpieces]
    exact fun before line after => hall.indented
  case trimmed =>
    rw [hpieces, List.forall_mem_append, List.forall_mem_map, List.forall_mem_singleton]
    exact ⟨fun l hl => hall.spaced.trimmed hl, by simp⟩
  case spaced =>
    rw [hpieces]
    exact hall.isChain_pieces
  case separated =>
    rintro front d back rfl
    rw [List.forall_mem_append, List.forall_mem_cons] at hfinished
    refine ⟨?_, (finished_lines hfinished.1).endsOnce, ?_⟩
    · have hall := render_append (front ++ [d]) back
      rw [render_concat, List.append_assoc] at hall
      exact ⟨_, hall⟩
    · exact hfinished.2.1.begins (d.whole_lines (hunbroken d (by simp)))
  case endsOnce => exact hall.endsOnce

end Source

namespace Acceptable

variable {d : Definitions} {c : Config}

/-- A property has one of the three primitive types, or the union of an enumerated name. -/
theorem isIdentifier_type (h : Acceptable d c) (hlawful : d.Lawful) {i : Interface}
    (hi : i ∈ (Synthesis.unitOf c d).interfaces) {f : Field} (hf : f ∈ i.fields) :
    isIdentifier f.type.text = true := by
  cases htype : f.type with
  | string => decide
  | number => decide
  | boolean => decide
  | named name =>
      obtain ⟨henumerated, rfl⟩ := Synthesis.enumerated_of_named c d hi hf htype
      exact h.isIdentifier_typeName hlawful
        (List.mem_append_right _ (List.mem_map_of_mem henumerated))

theorem complete (h : Acceptable d c) (hlawful : d.Lawful) :
    ∀ declaration ∈ (Synthesis.unitOf c d).declarations, declaration.Complete := by
  intro declaration hmem
  cases declaration with
  | interface i =>
      have hi : i ∈ (Synthesis.unitOf c d).interfaces := List.mem_filterMap.mpr ⟨_, hmem, rfl⟩
      exact fun f hf => h.isIdentifier_type hlawful hi hf
  | union u =>
      have hu : u ∈ (Synthesis.unitOf c d).unions := List.mem_filterMap.mpr ⟨_, hmem, rfl⟩
      exact (union_literals hlawful hu).1
  | shapeMap entries =>
      obtain rfl := Synthesis.shapeMap_mem_unitOf c d hmem
      refine List.forall_mem_map.mpr fun m hm => ?_
      obtain ⟨metric, hmetric, rfl⟩ := List.mem_map.mp hm
      exact h.metrics_named metric hmetric
  | definitionShape | nameUnion | definitionsTable _ | metadataOverride _ _ | span _ | recorder _
  | accessorBase _ => trivial

end Acceptable

/-- **A source is laid out.** Whatever is compiled from accepted documents is the source of some
declarations. Its lines are indented by four blanks for every brace of code that is open, less one
level where the line closes it, and by one blank more and a star where a comment goes on; none ends
with a blank, and no two empty ones follow each other. An empty line and no more stands before each
declaration, and the text ends with one line end. -/
theorem layout_of_accepted {documents : List Definitions} {c : Config} {text : String}
    (haccepted : ∀ d ∈ documents, ∃ value source, Definitions.ofJson value source = .ok d)
    (h : compile documents c = .ok text) :
    ∃ u, generateDocuments documents c = .ok u ∧ u.render = text
      ∧ Source.LaidOut text u.declarations := by
  obtain ⟨u, hunit, rfl⟩ := compile_eq_ok_iff.mp h
  refine ⟨u, hunit, rfl, ?_⟩
  obtain ⟨hacceptable, rfl⟩ := (generate_eq_ok_iff_acceptable _ c u).mp hunit
  have hlawful := Definitions.lawful_merge_withBundled c fun d hd => by
    obtain ⟨value, source, hvalue⟩ := haccepted d hd
    exact Definitions.lawful_of_ofJson hvalue
  exact Source.laidOut_render (Synthesis.word_bareNames_unitOf hacceptable.settings)
    (hacceptable.complete hlawful)

theorem layout_of_accepted_sample : ∃ u,
    generateDocuments [.sample] .sample = .ok u
      ∧ u.render = (Synthesis.unitOf .sample (.merge [.sample])).render
      ∧ Source.LaidOut (Synthesis.unitOf .sample (.merge [.sample])).render u.declarations := by
  have haccepted : ∀ d ∈ [Definitions.sample],
      ∃ value source, Definitions.ofJson value source = .ok d := by
    rw [List.forall_mem_singleton]
    exact ⟨Definitions.sample.toJson, "sample.json", rfl⟩
  exact layout_of_accepted haccepted (show compile [.sample] .sample = .ok _ from rfl)

end TelemetryTypes
