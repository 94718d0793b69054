import TelemetryTypes.Proofs.Lexical.Code
import TelemetryTypes.Proofs.Lexical.CommentEnds
import TelemetryTypes.Proofs.Lexical.Literals

/-!
# Lines and comments as they are read

Line ends and indentation are plain text, so lines are read one after the other. A doc comment is
read to its own end and no earlier: taking every comment end in its text apart leaves none, and what
frames a line of the text does not make a new one with it. So nothing is left of it but the blanks
before it.
-/

namespace TelemetryTypes

/-- What stands somewhere in two lists put together stands in the first, or in the second behind all
of the first. -/
theorem append_eq_append_cons {α : Type} {front back before after : List α} {a : α}
    (h : front ++ back = before ++ a :: after) :
    (∃ rest, front = before ++ a :: rest)
      ∨ ∃ rest, before = front ++ rest ∧ back = rest ++ a :: after := by
  rcases List.append_eq_append_iff.mp h with ⟨rest, hbefore, hback⟩ | ⟨more, hfront, hmore⟩
  · exact .inr ⟨rest, hbefore, hback⟩
  · cases more with
    | nil =>
        rw [List.append_nil] at hfront
        exact .inr ⟨[], by rw [hfront, List.append_nil], hmore.symm⟩
    | cons b rest =>
        obtain ⟨rfl, -⟩ := List.cons.inj hmore
        exact .inl ⟨rest, hfront⟩

namespace SourceLine

theorem renderAll_nil : renderAll [] = "" := rfl

theorem renderAll_singleton (l : SourceLine) : renderAll [l] = l.render := by
  rw [renderAll, List.map_singleton, String.intercalate_singleton]

theorem renderAll_cons (l : SourceLine) (lines : List SourceLine) :
    renderAll (l :: lines) = l.render ++ renderAll lines := by
  cases lines with
  | nil => rw [renderAll_singleton, renderAll_nil, String.append_empty]
  | cons next rest =>
      rw [renderAll, List.map_cons, List.map_cons, String.intercalate_cons_cons,
        String.append_empty]
      rfl

theorem renderAll_append (front back : List SourceLine) :
    renderAll (front ++ back) = renderAll front ++ renderAll back := by
  induction front with
  | nil => rw [List.nil_append, renderAll_nil, String.empty_append]
  | cons l rest ih => rw [List.cons_append, renderAll_cons, renderAll_cons, ih, String.append_assoc]

end SourceLine

namespace Lexical

open SourceLine (renderAll renderAll_cons renderAll_append renderAll_singleton)

/-- Lines that are read as code with the strings `literals` and leave no bracket open. -/
def ReadsLines (lines : List SourceLine) (literals : List String) : Prop :=
  Reads [] (renderAll lines) [] literals

instance (lines : List SourceLine) (literals : List String) :
    Decidable (ReadsLines lines literals) :=
  inferInstanceAs (Decidable (Reads _ _ _ _))

theorem plain_indentation (depth : Nat) :
    Plain (String.ofList (List.replicate (4 * depth) ' ')) := by
  rw [plain_iff, String.toList_ofList]
  intro c hc
  rw [List.eq_of_mem_replicate hc]
  decide

theorem Reads.render {outer inner : List Char} {text : String} {literals : List String}
    (h : Reads outer text inner literals) (depth : Nat) :
    Reads outer (SourceLine.render ⟨depth, text⟩) inner literals := by
  have hend : Plain "\n" := by decide
  have hall := ((plain (plain_indentation depth) outer).append h).append (plain hend inner)
  rwa [List.nil_append, List.append_nil] at hall

namespace ReadsLines

theorem nil : ReadsLines [] [] := rfl

theorem line {text : String} {literals : List String} (h : Reads [] text [] literals)
    (depth : Nat) : ReadsLines [⟨depth, text⟩] literals := by
  rw [ReadsLines, renderAll_singleton]
  exact h.render depth

theorem append {front back : List SourceLine} {first second : List String}
    (hfront : ReadsLines front first) (hback : ReadsLines back second) :
    ReadsLines (front ++ back) (first ++ second) := by
  rw [ReadsLines, renderAll_append]
  exact Reads.append hfront hback

theorem flatMap {α : Type} {items : List α} {lines : α → List SourceLine}
    {literals : α → List String} (h : ∀ a ∈ items, ReadsLines (lines a) (literals a)) :
    ReadsLines (items.flatMap lines) (items.flatMap literals) := by
  induction items with
  | nil => exact nil
  | cons a rest ih =>
      rw [List.flatMap_cons, List.flatMap_cons]
      exact (h a List.mem_cons_self).append (ih fun b hb => h b (List.mem_cons_of_mem a hb))

theorem block {header : String} {body : List SourceLine} {first second : List String}
    (hheader : Reads [] header [] first) (hbody : ReadsLines body second) (depth : Nat) :
    ReadsLines (Source.block depth header body) (first ++ second) := by
  have hopen : Reads [] " \x7b" ['\x7d'] [] := by decide
  have hclose : Reads ['\x7d'] "\x7d" [] [] := by decide
  rw [ReadsLines, Source.block, renderAll_append, renderAll_append, renderAll_singleton,
    renderAll_singleton]
  simpa using (((hheader.append hopen).render depth).append (hbody.under ['\x7d'])).append
    (hclose.render depth)

theorem blockOrEmpty {header : String} {body : List SourceLine} {first second : List String}
    (hheader : Reads [] header [] first) (hbody : ReadsLines body second) (depth : Nat) :
    ReadsLines (Source.blockOrEmpty depth header body) (first ++ second) := by
  cases body with
  | nil =>
      have hnone : second = [] := by
        have heq := Option.some.inj (hbody.symm.trans nil)
        exact congrArg State.literals heq
      have hempty : Reads [] " \x7b\x7d" [] [] := by decide
      rw [hnone]
      exact line (hheader.append hempty) depth
  | cons l rest => exact block hheader hbody depth

end ReadsLines

/-! ### Comments -/

/-- The state inside a block comment. -/
def commented (star : Bool) : State := ⟨.blockComment star, [], []⟩

/-- Read inside a block comment, a text stays inside and leaves no star behind it. -/
def Within (text : String) : Prop := (commented false).Skips text (commented false)

/-- A text without a comment end stays in the comment, unless its first character completes one. -/
theorem State.skips_of_unended {chars : List Char} (h : Unended chars) (star : Bool)
    (hfirst : star = true → chars.head? ≠ some '/') :
    ∃ after, (commented star).Skips (String.ofList chars) (commented after) := by
  induction chars generalizing star with
  | nil => exact ⟨star, rfl, rfl⟩
  | cons c rest ih =>
      have hopen : (star && c == '/') = false := by
        cases star with
        | false => rfl
        | true => simpa using hfirst rfl
      have hstep : (commented star).step c = some (commented (c == '*')) := by
        simp [step, commented, hopen]
      have hskips : (commented star).Skips (String.ofList [c]) (commented (c == '*')) := by
        rw [Skips, Leads, String.toList_ofList, run_cons_of_eq hstep, kept_cons hstep]
        exact ⟨rfl, rfl⟩
      obtain ⟨after, hafter⟩ := ih h.tail (c == '*') fun hstar => h.head?_ne (by simpa using hstar)
      refine ⟨after, ?_⟩
      change (commented star).Skips (String.ofList ([c] ++ rest)) _
      rw [String.ofList_append]
      exact hskips.append hafter

theorem State.skips_commentEnd (star : Bool) : (commented star).Skips " */" start := by
  cases star <;> decide

theorem within_indentation (depth : Nat) :
    Within (String.ofList (List.replicate (4 * depth) ' ')) := by
  rw [Within, State.Skips, State.Leads, String.toList_ofList]
  generalize 4 * depth = n
  induction n with
  | zero => exact ⟨rfl, rfl⟩
  | succ n ih => exact ih

theorem within_render {text : String} {after : Bool}
    (h : (commented false).Skips text (commented after)) (depth : Nat) :
    Within (SourceLine.render ⟨depth, text⟩) := by
  have hend : (commented after).Skips "\n" (commented false) := by cases after <;> decide
  exact ((within_indentation depth).append h).append hend

theorem Within.renderAll {lines : List SourceLine} (h : ∀ l ∈ lines, Within l.render) :
    Within (renderAll lines) := by
  induction lines with
  | nil => exact ⟨rfl, rfl⟩
  | cons l rest ih =>
      rw [renderAll_cons]
      exact (h l List.mem_cons_self).append (ih fun k hk => h k (List.mem_cons_of_mem l hk))

/-- What a comment says on a line, whichever of its lines it is. -/
def Comment.Said (chars : List Char) : Prop :=
  ∃ raw, '\n' ∉ raw ∧ chars = Comment.escapeEnds (Text.trimEnd raw)

/-- What a comment says, line by line. The mark of deprecation is said like a last line of the
text. -/
def Comment.saidLines (text : Option String) (deprecated : Bool) : List (List Char) :=
  (text.map Comment.bodyLines).getD [] ++ if deprecated then ["@deprecated".toList] else []

theorem Comment.said_of_mem_saidLines {text : Option String} {deprecated : Bool}
    {chars : List Char} (h : chars ∈ Comment.saidLines text deprecated) : Comment.Said chars := by
  rcases List.mem_append.mp h with hbody | hmark
  · cases text with
    | none => cases hbody
    | some text =>
        rw [Option.map_some, Option.getD_some, Comment.bodyLines] at hbody
        split_ifs at hbody
        · cases hbody
        · obtain ⟨piece, hpiece, rfl⟩ := List.mem_map.mp hbody
          exact ⟨piece, Text.not_mem_of_mem_pieces hpiece, rfl⟩
  · split_ifs at hmark
    · rw [List.mem_singleton.mp hmark]
      exact ⟨"@deprecated".toList, by decide, by decide⟩
    · cases hmark

/-- What a comment says, in its frame: a single line stands in one with what opens and ends it. -/
def Comment.framed (depth : Nat) : List (List Char) → List SourceLine
  | [] => []
  | [only] => [⟨depth, "/** " ++ String.ofList only ++ " */"⟩]
  | said => [⟨depth, "/**"⟩] ++ said.map (Comment.decorated depth) ++ [⟨depth, " */"⟩]

theorem Comment.framed_cons_cons (depth : Nat) (first second : List Char)
    (rest : List (List Char)) :
    Comment.framed depth (first :: second :: rest)
      = [⟨depth, "/**"⟩] ++ (first :: second :: rest).map (Comment.decorated depth)
        ++ [⟨depth, " */"⟩] := rfl

theorem Comment.lines_eq_framed (depth : Nat) (text : Option String) (deprecated : Bool) :
    Comment.lines depth text deprecated
      = Comment.framed depth (Comment.saidLines text deprecated) := by
  unfold Comment.lines Comment.saidLines
  generalize (text.map Comment.bodyLines).getD [] = body
  cases deprecated with
  | false =>
      match body with
      | [] => rfl
      | [_] => rfl
      | first :: second :: rest => simp [Comment.framed]
  | true =>
      match body with
      | [] => rfl
      | [_] => rfl
      | first :: second :: rest => simp [Comment.framed, Comment.decorated]

/-- A comment has no lines, or one that opens and ends it, or a line that opens it, what it says,
and a line that ends it. -/
theorem Comment.lines_cases (depth : Nat) (text : Option String) (deprecated : Bool) :
    Comment.lines depth text deprecated = []
      ∨ (∃ said, Comment.Said said
        ∧ Comment.lines depth text deprecated = [⟨depth, "/** " ++ String.ofList said ++ " */"⟩])
      ∨ ∃ middle : List (List Char), (∀ said ∈ middle, Comment.Said said)
        ∧ Comment.lines depth text deprecated
          = [⟨depth, "/**"⟩] ++ middle.map (Comment.decorated depth) ++ [⟨depth, " */"⟩] := by
  have hsaid := @Comment.said_of_mem_saidLines text deprecated
  rw [Comment.lines_eq_framed]
  generalize Comment.saidLines text deprecated = said at hsaid
  match said with
  | [] => exact .inl rfl
  | [only] => exact .inr (.inl ⟨only, hsaid List.mem_cons_self, rfl⟩)
  | first :: second :: rest => exact .inr (.inr ⟨_, fun _ => hsaid, rfl⟩)

theorem Comment.Said.unended {chars : List Char} (h : Comment.Said chars) : Unended chars := by
  obtain ⟨raw, -, rfl⟩ := h
  exact (endsApart_escapeEnds _).unended

theorem within_decorated (depth : Nat) {said : List Char} (hsaid : Comment.Said said) :
    Within (Comment.decorated depth said).render := by
  have hbare : (commented false).Skips " *" (commented true) := by decide
  have hframe : (commented false).Skips " * " (commented false) := by decide
  obtain ⟨after, hafter⟩ := State.skips_of_unended hsaid.unended false (by simp)
  unfold Comment.decorated
  split_ifs
  · exact within_render hbare depth
  · exact within_render (hframe.append hafter) depth

/-- Lines that stay inside a comment, between the line that opens it and the line that ends it. -/
theorem skips_framed {body : List SourceLine} (hbody : ∀ l ∈ body, Within l.render)
    (depth : Nat) :
    ∃ text, State.start.Skips text State.start
      ∧ renderAll ([⟨depth, "/**"⟩] ++ body ++ [⟨depth, " */"⟩])
        = SourceLine.render ⟨depth, text⟩ := by
  have hopen : State.start.Skips ("/**" ++ "\n") (commented false) := by decide
  have hinside := (hopen.append (Within.renderAll hbody)).append (within_indentation depth)
  refine ⟨_, hinside.append (State.skips_commentEnd false), ?_⟩
  simp only [renderAll_append, renderAll_singleton, SourceLine.render, String.append_assoc]

/-- A comment is read as a comment, whatever is said in it, and takes one line if any. -/
theorem skips_comment (depth : Nat) (text : Option String) (deprecated : Bool) :
    Comment.lines depth text deprecated = []
      ∨ ∃ text', State.start.Skips text' State.start
        ∧ renderAll (Comment.lines depth text deprecated) = SourceLine.render ⟨depth, text'⟩ := by
  obtain hnone | ⟨said, hsaid, hlines⟩ | ⟨middle, hsaid, hlines⟩ :=
    Comment.lines_cases depth text deprecated
  · exact .inl hnone
  · have hopen : State.start.Skips "/** " (commented false) := by decide
    obtain ⟨after, hafter⟩ := State.skips_of_unended hsaid.unended false (by simp)
    rw [hlines]
    exact .inr ⟨_, (hopen.append hafter).append (State.skips_commentEnd after),
      renderAll_singleton _⟩
  · rw [hlines]
    refine .inr (skips_framed (fun l hl => ?_) depth)
    obtain ⟨said, hmem, rfl⟩ := List.mem_map.mp hl
    exact within_decorated depth (hsaid said hmem)

theorem ReadsLines.comment (depth : Nat) (text : Option String) (deprecated : Bool) :
    ReadsLines (Comment.lines depth text deprecated) [] := by
  obtain hnone | ⟨text', hskips, hrender⟩ := skips_comment depth text deprecated
  · rw [hnone]
    exact nil
  · rw [ReadsLines, hrender]
    exact Reads.render hskips.1 depth

/-! ### What lines leave -/

/-- What stays of lines that are read between brackets, where the scanner is in a mode that is
shown. -/
def leftBy (shown : Mode → Bool) (outer : List Char) (lines : List SourceLine) : List Char :=
  State.keptIn shown ⟨.code, outer, []⟩ (renderAll lines).toList

section Left

variable {shown : Mode → Bool}

theorem leftBy_under {outer inner : List Char} {literals : List String} {lines : List SourceLine}
    (h : Reads outer (renderAll lines) inner literals) (around : List Char) :
    leftBy shown (outer ++ around) lines = leftBy shown outer lines :=
  State.keptIn_under shown h around []

theorem exists_renderAll_lineEnd {lines : List SourceLine} (h : lines ≠ []) :
    ∃ front, (renderAll lines).toList = front ++ ['\n'] := by
  obtain ⟨before, last, rfl⟩ := List.eq_nil_or_concat lines |>.resolve_left h
  refine ⟨(renderAll before).toList ++ (List.replicate (4 * last.depth) ' ' ++ last.text.toList), ?_⟩
  simp [renderAll_append, renderAll_singleton, SourceLine.render]

/-- What is read of lines one by one is read of one part of them after the other. -/
theorem read_leftBy_append {β : Type} {read : List Char → List β} (hnil : read [] = [])
    (hread : ∀ front back, read (front ++ '\n' :: back) = read front ++ read back)
    (hshown : State.ShowsLineEnds shown) {outer inner last : List Char} {first second : List String}
    {front back : List SourceLine} (hfront : Reads outer (renderAll front) inner first)
    (hback : Reads inner (renderAll back) last second) :
    read (leftBy shown outer (front ++ back))
      = read (leftBy shown outer front) ++ read (leftBy shown inner back) := by
  have hunder := State.keptIn_under shown hback [] first
  rw [State.under, List.append_nil, List.append_nil] at hunder
  have hall : leftBy shown outer (front ++ back)
      = leftBy shown outer front ++ leftBy shown inner back := by
    rw [leftBy, renderAll_append, String.toList_append, State.keptIn_append shown hfront, hunder]
    rfl
  by_cases hempty : front = []
  · subst hempty
    obtain rfl : outer = inner := congrArg State.closers (Option.some.inj hfront)
    have hnothing : leftBy shown outer [] = [] := rfl
    rw [hnothing, hnil]
    rfl
  · obtain ⟨text, htext⟩ := exists_renderAll_lineEnd hempty
    have hlast := hfront
    rw [Reads, State.Leads, htext] at hlast
    obtain ⟨line, hline⟩ := State.exists_keptIn_of_lineEnd hshown rfl hlast
    rw [← htext] at hline
    rw [hall, leftBy, hline, List.append_assoc, List.singleton_append, hread, hread, hnil,
      List.append_nil]

theorem keptIn_blanks (hcode : shown .code = true) (n : Nat) :
    State.start.keptIn shown (List.replicate n ' ') = List.replicate n ' ' := by
  induction n with
  | zero => rfl
  | succ n ih =>
      have hstep : State.start.step ' ' = some State.start := rfl
      have hkeeps : State.start.keeps ' ' = [' '] := rfl
      rw [List.replicate_succ, State.keptIn_cons shown hstep, ih, hkeeps]
      simp [State.start, hcode]

/-- A comment leaves the blanks before it and the line end behind it. -/
theorem leftBy_comment (hcode : shown .code = true) (depth : Nat) (text : Option String)
    (deprecated : Bool) :
    leftBy shown [] (Comment.lines depth text deprecated) = []
      ∨ leftBy shown [] (Comment.lines depth text deprecated)
        = List.replicate (4 * depth) ' ' ++ ['\n'] := by
  obtain hnone | ⟨text', hskips, hrender⟩ := skips_comment depth text deprecated
  · rw [hnone]
    exact .inl rfl
  · have hblanks : State.start.Leads (String.ofList (List.replicate (4 * depth) ' ')) State.start :=
      Reads.plain (plain_indentation depth) []
    have hnothing : State.start.keptIn shown text'.toList = [] := by
      have hsublist := State.keptIn_sublist_kept shown State.start text'.toList
      rwa [hskips.2, List.sublist_nil] at hsublist
    have hend : State.start.keptIn shown ['\n'] = ['\n'] := by
      rw [State.keptIn_cons shown (t := State.start) rfl]
      simp [State.start, hcode, State.keeps, State.keptIn]
    refine .inr ?_
    change State.start.keptIn shown _ = _
    rw [hrender, SourceLine.render, String.toList_append,
      State.keptIn_append shown (hblanks.append hskips.1), String.toList_append,
      State.keptIn_append shown hblanks, hnothing, String.toList_ofList, keptIn_blanks hcode,
      List.append_nil]
    exact congrArg _ hend

end Left

end Lexical

end TelemetryTypes
