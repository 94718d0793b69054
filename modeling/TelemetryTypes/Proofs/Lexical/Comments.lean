import Mathlib.Data.List.Forall2
import TelemetryTypes.Proofs.Lexical.Writer

/-!
# What comments say

A comment is read back from its text: it has to be whole lines at a depth, and what is left of them
without their decoration is what it says. What it has to say is known from the text that it was made
for, by rules that know nothing of how comments are written: the lines of a text are what stands
between its line feeds, and a comment end in them is taken apart wherever it occurs. That no other
comment end comes about, where what is said meets its frame, is a matter of the two characters that
meet (`Unended.append`).
-/

namespace TelemetryTypes

namespace Lexical

open SourceLine (renderAll renderAll_nil renderAll_cons renderAll_append renderAll_singleton)

/-! ### Comments as they are read -/

/-- What a line of a comment says behind its star. -/
def undecorated? (line : List Char) : Option (List Char) :=
  if line = " *".toList then some [] else " * ".toList.isPrefixOf? line

/-- What the lines of a comment say. -/
def saidOn? : List (List Char) → Option (List (List Char))
  | [] => none
  | [line] =>
    (" */".toList.isSuffixOf? line).bind fun front =>
      ("/** ".toList.isPrefixOf? front).map ([·])
  | opening :: rest =>
    if opening = "/**".toList ∧ rest.getLast? = some " */".toList then
      rest.dropLast.mapM undecorated?
    else none

/-- What a text says that is a comment at a depth, in whole lines, and nothing else. -/
def commentIn? (depth : Nat) (text : String) : Option (List (List Char)) :=
  let lines := Text.pieces text.toList
  if lines.getLast? = some [] then
    (lines.dropLast.mapM ((List.replicate (4 * depth) ' ').isPrefixOf? ·)).bind saidOn?
  else none

theorem mapM_eq_some {α β : Type} {f : α → Option β} {g : α → β} {items : List α}
    (h : ∀ a ∈ items, f a = some (g a)) : items.mapM f = some (items.map g) := by
  induction items with
  | nil => rfl
  | cons a rest ih =>
      rw [List.forall_mem_cons] at h
      rw [List.mapM_cons, h.1, ih h.2]
      rfl

theorem toList_decorated {said : List Char} (h : said ≠ []) (depth : Nat) :
    (Comment.decorated depth said).text.toList = " * ".toList ++ said := by
  have htext : (Comment.decorated depth said).text = " * " ++ String.ofList said := by
    simp [Comment.decorated, h]
  rw [htext, String.toList_append]
  exact congrArg (" * ".toList ++ ·) String.toList_ofList

theorem undecorated?_decorated (depth : Nat) (said : List Char) :
    undecorated? (Comment.decorated depth said).text.toList = some said := by
  by_cases hsaid : said = []
  · simp [hsaid, Comment.decorated, undecorated?]
  · have hlonger : " * ".toList ++ said ≠ " *".toList := by simp
    rw [toList_decorated hsaid, undecorated?, if_neg hlonger, Reader.isPrefixOf?_append]

theorem saidOn?_frame (middle : List (List Char)) :
    saidOn? ("/**".toList :: (middle ++ [" */".toList])) = middle.mapM undecorated? := by
  rw [saidOn?, if_pos ⟨rfl, List.getLast?_concat⟩, List.dropLast_concat]
  simp

/-- What is said in a frame is found in it. -/
theorem saidOn?_framed {said : List (List Char)} (h : said ≠ []) (depth : Nat) :
    saidOn? ((Comment.framed depth said).map (·.text.toList)) = some said := by
  rcases said with _ | ⟨first, _ | ⟨second, rest⟩⟩
  · exact absurd rfl h
  · have hend (front : List Char) :
        " */".toList.isSuffixOf? (front ++ " */".toList) = some front :=
      List.isSuffixOf?_eq_some_iff_append_eq.mpr rfl
    rw [Comment.framed, List.map_singleton, String.toList_append, String.toList_append, saidOn?,
      hend, Option.bind_some, Reader.isPrefixOf?_append, Option.map_some]
    simp only [String.toList_ofList]
  · have hlines : (Comment.framed depth (first :: second :: rest)).map (·.text.toList)
        = "/**".toList :: ((first :: second :: rest).map
            (fun said => (Comment.decorated depth said).text.toList) ++ [" */".toList]) := by
      simp [Comment.framed]
    rw [hlines, saidOn?_frame, List.mapM_map]
    exact (mapM_eq_some fun said _ => undecorated?_decorated depth said).trans
      (congrArg some (List.map_id _))

theorem commentIn?_renderAll {depth : Nat} {lines : List SourceLine} (hwhole : Whole lines)
    (hdepth : ∀ l ∈ lines, l.depth = depth) :
    commentIn? depth (renderAll lines) = saidOn? (lines.map (·.text.toList)) := by
  have hread : (lines.map SourceLine.chars).mapM
      ((List.replicate (4 * depth) ' ').isPrefixOf? ·) = some (lines.map (·.text.toList)) := by
    rw [List.mapM_map]
    refine mapM_eq_some fun l hl => ?_
    rw [Function.comp_apply, SourceLine.chars, hdepth l hl, Reader.isPrefixOf?_append]
  rw [commentIn?, pieces_renderAll hwhole, List.getLast?_concat, if_pos rfl, List.dropLast_concat,
    hread, Option.bind_some]

/-! ### What a comment is -/

/-- A text is one comment at a depth, in whole lines, which says the given lines. -/
structure IsComment (depth : Nat) (text : String) (said : List (List Char)) : Prop where
  opens : List.replicate (4 * depth) ' ' ++ "/**".toList <+: text.toList
  ends : commentEnd ++ ['\n'] <:+ text.toList
  /-- It has no other comment end than its last one. -/
  ends_once : ∀ before after, text.toList = before ++ commentEnd ++ after → after = ['\n']
  reads : commentIn? depth text = some said

/-- The lines of texts without a comment end have none, as a line end stands between any two. -/
theorem unended_renderAll {lines : List SourceLine} (h : ∀ l ∈ lines, Unended l.text.toList) :
    Unended (renderAll lines).toList := by
  induction lines with
  | nil => decide
  | cons l rest ih =>
      rw [List.forall_mem_cons] at h
      have hline : Unended (List.replicate (4 * l.depth) ' ' ++ l.text.toList ++ ['\n']) :=
        (h.1.indented _).append (.singleton '\n') (by simp)
      have hrender : l.render.toList
          = List.replicate (4 * l.depth) ' ' ++ l.text.toList ++ ['\n'] := by
        simp [SourceLine.render]
      rw [renderAll_cons, String.toList_append, hrender]
      exact hline.append (ih h.2) (by simp)

theorem unended_decorated {said : List Char} (h : Unended said) (depth : Nat) :
    Unended (Comment.decorated depth said).text.toList := by
  by_cases hsaid : said = []
  · have hbare : Unended " *".toList := by decide
    simpa [hsaid, Comment.decorated] using hbare
  · have hstar : Unended " * ".toList := by decide
    rw [toList_decorated hsaid]
    exact hstar.append h (by simp)

/-- Before its last two characters a comment has no comment end. -/
theorem exists_front {said : List (List Char)} (hne : said ≠ [])
    (hsaid : ∀ line ∈ said, Unended line) (depth : Nat) :
    ∃ front, Unended front
      ∧ (renderAll (Comment.framed depth said)).toList = front ++ " */\n".toList := by
  rcases said with _ | ⟨first, _ | ⟨second, rest⟩⟩
  · exact absurd rfl hne
  · have hopen : Unended "/** ".toList := by decide
    have honly := hopen.append (hsaid first List.mem_cons_self) (by simp)
    refine ⟨_, honly.indented (4 * depth), ?_⟩
    simp [Comment.framed, renderAll_singleton, SourceLine.render]
  · have hopen : Unended "/**".toList := by decide
    have hlines : ∀ l ∈ [⟨depth, "/**"⟩]
        ++ (first :: second :: rest).map (Comment.decorated depth), Unended l.text.toList := by
      rw [List.forall_mem_append, List.forall_mem_singleton, List.forall_mem_map]
      exact ⟨hopen, fun line hline => unended_decorated (hsaid line hline) depth⟩
    have hblanks : Unended (List.replicate (4 * depth) ' ') := by
      simpa using (by decide : Unended []).indented (4 * depth)
    refine ⟨_, (unended_renderAll hlines).append hblanks fun _ hhead => ?_, ?_⟩
    · exact absurd (List.eq_of_mem_replicate (List.mem_of_head? hhead)) (by decide)
    · rw [Comment.framed_cons_cons, renderAll_append, renderAll_singleton, String.toList_append]
      simp [SourceLine.render]

theorem opens_framed {said : List (List Char)} (h : said ≠ []) (depth : Nat) :
    List.replicate (4 * depth) ' ' ++ "/**".toList
      <+: (renderAll (Comment.framed depth said)).toList := by
  rcases said with _ | ⟨first, _ | ⟨second, rest⟩⟩
  · exact absurd rfl h
  · refine ⟨' ' :: (first ++ " */\n".toList), ?_⟩
    simp [Comment.framed, renderAll_singleton, SourceLine.render]
  · refine ⟨'\n' :: (renderAll ((first :: second :: rest).map (Comment.decorated depth)
      ++ [⟨depth, " */"⟩])).toList, ?_⟩
    simp [Comment.framed, renderAll_cons, SourceLine.render]

theorem depth_of_mem_framed {depth : Nat} {said : List (List Char)} {l : SourceLine}
    (h : l ∈ Comment.framed depth said) : l.depth = depth := by
  rcases said with _ | ⟨first, _ | ⟨second, rest⟩⟩
  · cases h
  · rw [List.mem_singleton.mp h]
  · simp only [Comment.framed, List.mem_append, List.mem_singleton, List.mem_map] at h
    rcases h with (rfl | ⟨line, -, rfl⟩) | rfl
    · rfl
    · rfl
    · rfl

/-- What follows the last star and slash of a text that has no comment end before them. -/
theorem eq_of_commentEnd {front before after : List Char} (h : Unended front)
    (heq : front ++ " */\n".toList = before ++ commentEnd ++ after) : after = ['\n'] := by
  rw [List.append_assoc] at heq
  rcases append_eq_append_cons heq with ⟨rest, rfl⟩ | ⟨rest, rfl, hrest⟩
  · rw [List.append_assoc, List.append_cancel_left_eq] at heq
    obtain ⟨-, hslash⟩ := List.cons.inj heq
    cases rest with
    | nil => cases hslash
    | cons c more =>
        obtain ⟨rfl, -⟩ := List.cons.inj hslash
        exact absurd ⟨before, more, by simp [commentEnd]⟩ h
  · rcases rest with _ | ⟨_, _ | ⟨_, more⟩⟩
    · cases hrest
    · obtain ⟨-, hlast⟩ := List.cons.inj (List.cons.inj hrest).2
      exact (List.cons.inj hlast).2.symm
    · have hlast : ['/', '\n'] = more ++ '*' :: '/' :: after :=
        (List.cons.inj (List.cons.inj hrest).2).2
      have hstar : '*' ∈ ['/', '\n'] := by simp [hlast]
      exact absurd hstar (by decide)

/-- What the writing of a comment comes to. -/
def commentSource (depth : Nat) (text : Option String) (deprecated : Bool) : String :=
  renderAll (Comment.lines depth text deprecated)

theorem isComment_source {text : Option String} {deprecated : Bool}
    (h : Comment.saidLines text deprecated ≠ []) (depth : Nat) :
    IsComment depth (commentSource depth text deprecated) (Comment.saidLines text deprecated) := by
  have hunended : ∀ line ∈ Comment.saidLines text deprecated, Unended line :=
    fun _ hline => (Comment.said_of_mem_saidLines hline).unended
  obtain ⟨front, hfront, htext⟩ := exists_front h hunended depth
  have hwhole := Whole.comment depth text deprecated
  rw [commentSource]
  rw [Comment.lines_eq_framed] at hwhole ⊢
  exact {
    opens := opens_framed h depth
    ends := ⟨front ++ [' '], by rw [htext, List.append_assoc]; rfl⟩
    ends_once := fun before after heq => eq_of_commentEnd hfront (htext ▸ heq)
    reads := by
      rw [commentIn?_renderAll hwhole fun _ => depth_of_mem_framed, saidOn?_framed h] }

/-! ### What a comment has to say -/

/-- A text without the blanks around it. -/
def trimmed (text : Option String) : List Char := Text.trim (text.getD "").toList

/-- The lines of a text without the blanks around it, if anything is left of it. -/
def textLines (text : Option String) : List (List Char) :=
  if trimmed text = [] then [] else (trimmed text).splitOn '\n'

/-- A line of a text is kept without the blanks at its end and with its comment ends apart. -/
def KeepsLine (line kept : List Char) : Prop := EndsApart (Text.trimEnd line) kept

theorem keeps_bodyLines (text : Option String) :
    List.Forall₂ KeepsLine (textLines text) ((text.map Comment.bodyLines).getD []) := by
  cases text with
  | none => exact .nil
  | some text =>
      rw [textLines, Option.map_some, Option.getD_some, Comment.bodyLines]
      by_cases hblank : trimmed (some text) = []
      · have hempty : (Text.trim text.toList).isEmpty = true := by simpa [trimmed] using hblank
        rw [if_pos hblank]
        simp [hempty]
      · have hleft : (Text.trim text.toList).isEmpty = false := by simpa [trimmed] using hblank
        simp only [if_neg hblank, hleft, Bool.false_eq_true, if_false, ← Text.pieces_eq_splitOn]
        rw [List.forall₂_map_right_iff]
        exact List.forall₂_same.mpr fun line _ => endsApart_escapeEnds _

theorem textLines_eq_nil_iff {text : Option String} : textLines text = [] ↔ trimmed text = [] := by
  unfold textLines
  split_ifs with hblank
  · simp [hblank]
  · simp [hblank, ← Text.pieces_eq_splitOn, Text.pieces_ne_nil]

theorem saidLines_eq_nil_iff {text : Option String} {deprecated : Bool} :
    Comment.saidLines text deprecated = [] ↔ trimmed text = [] ∧ deprecated = false := by
  have hbody : (text.map Comment.bodyLines).getD [] = [] ↔ trimmed text = [] := by
    rw [← textLines_eq_nil_iff, ← List.length_eq_zero_iff, ← List.length_eq_zero_iff,
      (keeps_bodyLines text).length_eq]
  rw [Comment.saidLines, List.append_eq_nil_iff, hbody]
  cases deprecated with
  | false => simp
  | true => simp

end Lexical

open Lexical

/-- **A comment says its text and ends where it should.** Wherever the writer is, it adds nothing for
a blank text without a mark of deprecation, and stays as deep as it was. For any other it adds one
comment in whole lines at its depth, with no comment end but the last two characters before the line
end. Without their decoration its lines are those of the text, between the blanks around it, each
without the blanks at its end and with its comment ends apart, and then the mark if there is one. -/
theorem comments_keep_text (text : Option String) (deprecated : Bool) (w : Writer) :
    w.run (Writer.Step.comment text deprecated)
        = ⟨w.out ++ commentSource w.depth text deprecated, w.depth⟩
      ∧ (trimmed text = [] ∧ deprecated = false → commentSource w.depth text deprecated = "")
      ∧ (¬(trimmed text = [] ∧ deprecated = false) →
          ∃ kept, List.Forall₂ KeepsLine (textLines text) kept
            ∧ IsComment w.depth (commentSource w.depth text deprecated)
              (kept ++ if deprecated then ["@deprecated".toList] else [])) := by
  refine ⟨(Writer.Writes.comment text deprecated).run_eq w, fun hsilent => ?_, fun htext => ?_⟩
  · rw [commentSource, Comment.lines_eq_framed, saidLines_eq_nil_iff.mpr hsilent]
    rfl
  · exact ⟨_, keeps_bodyLines text, isComment_source (mt saidLines_eq_nil_iff.mp htext) w.depth⟩

theorem comments_keep_text_sample :
    ¬(trimmed (some " */a**/ *\n\n/b *\t\r\n*/ ") = [] ∧ true = false)
      ∧ ∃ kept,
        List.Forall₂ KeepsLine (textLines (some " */a**/ *\n\n/b *\t\r\n*/ ")) kept
          ∧ IsComment 1 (commentSource 1 (some " */a**/ *\n\n/b *\t\r\n*/ ") true)
            (kept ++ ["@deprecated".toList]) := by
  have htext : ¬(trimmed (some " */a**/ *\n\n/b *\t\r\n*/ ") = [] ∧ true = false) :=
    fun h => nomatch h.2
  exact ⟨htext, (comments_keep_text _ true ⟨"", 1⟩).2.2 htext⟩

example : commentIn? 1 (commentSource 1 (some " */a**/ *\n\n/b *\t\r\n*/ ") true)
    = some ["*\\/a**\\/ *".toList, [], "/b *".toList, "*\\/".toList, "@deprecated".toList] := by
  decide

end TelemetryTypes
