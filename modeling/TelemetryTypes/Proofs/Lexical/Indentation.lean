import TelemetryTypes.Proofs.Lexical.Edges

/-!
# Lines and the braces around them

A line of code is indented by the braces that are open before it, or by one less if it closes one,
and a line that goes on with a comment has one blank more and a star. What is open before a line is
known from the scanner, which has read all lines before it; lines are `Aligned` if each begins as
the state has it in which it is come to.
-/

namespace TelemetryTypes.Lexical

open Text (isBlank)
open SourceLine (renderAll renderAll_append renderAll_singleton)

/-! ### States and lines -/

/-- How many braces of code are open. -/
def State.braces (s : State) : Nat := s.closers.count '\x7d'

/-- Whether a line that begins in a state is indented as the state has it. -/
def Indented (s : State) (line : List Char) : Prop :=
  match s.mode with
  | .code => line = [] ∨ ∃ depth c rest, line = List.replicate (4 * depth) ' ' ++ c :: rest
      ∧ isBlank c = false ∧ s.braces = if c = '\x7d' then depth + 1 else depth
  | .blockComment _ => ∃ rest, line = List.replicate (4 * s.braces) ' ' ++ " *".toList ++ rest
  | _ => False

/-- The state in code behind braces only. -/
def nested (depth : Nat) (literals : List String) : State :=
  ⟨.code, List.replicate depth '\x7d', literals⟩

/-- The state in a comment that stands behind braces only. -/
def nestedComment (depth : Nat) (literals : List String) : State :=
  ⟨.blockComment false, List.replicate depth '\x7d', literals⟩

@[simp] theorem braces_nested (depth : Nat) (literals : List String) :
    (nested depth literals).braces = depth := List.count_replicate_self

@[simp] theorem braces_nestedComment (depth : Nat) (literals : List String) :
    (nestedComment depth literals).braces = depth := List.count_replicate_self

theorem indented_code {text : String} (h : Begins text) (depth : Nat) (literals : List String) :
    Indented (nested depth literals) (SourceLine.chars ⟨depth, text⟩) := by
  obtain ⟨c, rest, htext, hc⟩ := begins_iff.mp h
  simp only [begins, Bool.and_eq_true, Bool.not_eq_true', bne_iff_ne] at hc
  exact .inr ⟨depth, c, rest, by rw [SourceLine.chars, htext], hc.1, by simp [hc.2]⟩

theorem indented_close (depth : Nat) (literals : List String) :
    Indented (nested (depth + 1) literals) (SourceLine.chars ⟨depth, "\x7d"⟩) :=
  .inr ⟨depth, '\x7d', [], by simp [SourceLine.chars], by decide, by simp⟩

theorem indented_comment (depth : Nat) (literals : List String) (rest : String) :
    Indented (nestedComment depth literals) (SourceLine.chars ⟨depth, " *" ++ rest⟩) := by
  refine ⟨rest.toList, ?_⟩
  rw [braces_nestedComment, SourceLine.chars, String.toList_append, List.append_assoc]

/-! ### Lines one after the other -/

/-- Read from a state, every line begins where it is indented. -/
def Aligned (s : State) (lines : List SourceLine) : Prop :=
  ∀ front l back, lines = front ++ l :: back →
    ∃ t, s.Leads (renderAll front) t ∧ Indented t l.chars

namespace Aligned

variable {s t : State} {front back : List SourceLine}

theorem nil : Aligned s [] := by
  intro front l back h
  simp at h

theorem singleton {l : SourceLine} (h : Indented s l.chars) : Aligned s [l] := by
  intro front l' back hsplit
  rcases List.singleton_eq_append_iff.mp hsplit with ⟨rfl, hl⟩ | ⟨-, hnone⟩
  · obtain ⟨rfl, -⟩ := List.cons.inj hl
    exact ⟨s, rfl, h⟩
  · cases hnone

theorem append (hread : s.Leads (renderAll front) t) (hfront : Aligned s front)
    (hback : Aligned t back) : Aligned s (front ++ back) := by
  intro before l after hsplit
  rcases append_eq_append_cons hsplit with ⟨rest, hrest⟩ | ⟨rest, rfl, hrest⟩
  · exact hfront before l rest hrest
  · obtain ⟨u, hlead, hindented⟩ := hback rest l after hrest
    refine ⟨u, ?_, hindented⟩
    rw [renderAll_append]
    exact hread.append hlead

end Aligned

/-- Around lines that are read as code the braces stay as they are. -/
theorem ReadsLines.leads {lines : List SourceLine} {literals : List String}
    (h : ReadsLines lines literals) (depth : Nat) (before : List String) :
    (nested depth before).Leads (renderAll lines) (nested depth (before ++ literals)) := by
  have hall := State.Leads.under h (List.replicate depth '\x7d') before
  simpa [State.under, nested] using hall

/-- Inside a comment every line stays inside and is indented for it. -/
theorem aligned_decorated {middle : List (List Char)} (h : ∀ said ∈ middle, Comment.Said said)
    (depth : Nat) (literals : List String) :
    Aligned (nestedComment depth literals) (middle.map (Comment.decorated depth))
      ∧ (nestedComment depth literals).Leads (renderAll (middle.map (Comment.decorated depth)))
        (nestedComment depth literals) := by
  induction middle with
  | nil => exact ⟨.nil, rfl⟩
  | cons said rest ih =>
      rw [List.forall_mem_cons] at h
      have hline : Indented (nestedComment depth literals)
          (Comment.decorated depth said).chars := by
        unfold Comment.decorated
        split_ifs
        · exact indented_comment depth literals ""
        · exact indented_comment depth literals (" " ++ String.ofList said)
      have hwithin := (within_decorated depth h.1).1.under (List.replicate depth '\x7d') literals
      have hlead : (nestedComment depth literals).Leads (renderAll [Comment.decorated depth said])
          (nestedComment depth literals) := by
        rw [renderAll_singleton]
        simpa [State.under, nestedComment, commented] using hwithin
      obtain ⟨haligned, hleads⟩ := ih h.2
      rw [List.map_cons, ← List.singleton_append]
      refine ⟨.append hlead (.singleton hline) haligned, ?_⟩
      rw [renderAll_append]
      exact hlead.append hleads

theorem aligned_comment (depth : Nat) (text : Option String) (deprecated : Bool)
    (literals : List String) :
    Aligned (nested depth literals) (Comment.lines depth text deprecated) := by
  have hopen : Begins "/**" := by decide
  obtain hnone | ⟨said, -, hlines⟩ | ⟨middle, hsaid, hlines⟩ :=
    Comment.lines_cases depth text deprecated
  · rw [hnone]
    exact .nil
  · have hstart : Begins "/** " := by decide
    rw [hlines]
    exact .singleton (indented_code ((hstart.append _).append _) depth literals)
  · have hlead : (nested depth literals).Leads (renderAll [⟨depth, "/**"⟩])
        (nestedComment depth literals) := by
      have hline : State.start.Leads ("/**" ++ "\n") (commented false) := by decide
      have hall := State.Leads.append (Reads.plain (plain_indentation depth) []) hline
      have hunder := hall.under (List.replicate depth '\x7d') literals
      rw [renderAll_singleton, SourceLine.render, String.append_assoc]
      simpa [State.under, nested, nestedComment, commented] using hunder
    obtain ⟨haligned, hleads⟩ := aligned_decorated hsaid depth literals
    rw [hlines, List.append_assoc]
    exact .append hlead (.singleton (indented_code hopen depth literals))
      (.append hleads haligned (.singleton (indented_comment depth literals "/")))

end TelemetryTypes.Lexical
