import TelemetryTypes.Proofs.Lexical.Scanner
import TelemetryTypes.Proofs.Text.Pieces

/-!
# What is left without comments

Of a text without its block comments everything else is left, strings and comments to the end of a
line included; what starts like a comment inside a string is none. Lines of which no character but
blanks is left do not count, so it makes no difference where comments stood on lines of their own.

What is left of a text depends on what the scanner is in the middle of when it comes to it, and on
nothing else (`State.kept_under`), so texts are taken piece by piece here too.
-/

namespace TelemetryTypes.Lexical

namespace State

/-- What is settled by a character to stay. A slash stays once it is clear that it starts no
comment. -/
def keeps (s : State) (c : Char) : List Char :=
  match s.mode with
  | .code => if c = '/' then [] else [c]
  | .slash => if c = '*' then [] else ['/', c]
  | .blockComment _ => []
  | .lineComment => [c]
  | .string _ => [c]
  | .escape _ => [c]

/-- What stays of a text, up to a fault. -/
def kept (s : State) : List Char → List Char
  | [] => []
  | c :: rest =>
    match s.step c with
    | some next => s.keeps c ++ next.kept rest
    | none => []

/-- What stays because the text ends. -/
def pending (s : State) : List Char := if s.mode = .slash then ['/'] else []

end State

/-- The lines of a text that are more than blanks. -/
def codeLines (text : List Char) : List String :=
  ((Text.pieces text).filter (!·.all (· == ' '))).map String.ofList

/-- The lines that are left of a text without its block comments, if there is no fault in it. -/
def code? (text : String) : Option (List String) :=
  (scan text).map fun s => codeLines (State.start.kept text.toList ++ s.pending)

example : code? "a /* it's\n */ b '/* no */' // /* no\n   /** x */\n\nc /" =
    some ["a  b '/* no */' // /* no", "c /"] := by decide

namespace State

/-- What stays of a text where the scanner is in one of the modes that are shown, up to a fault. -/
def keptIn (shown : Mode → Bool) (s : State) : List Char → List Char
  | [] => []
  | c :: rest =>
    match s.step c with
    | some next => (if shown s.mode then s.keeps c else []) ++ next.keptIn shown rest
    | none => []

section Shown

variable (shown : Mode → Bool) {s t : State}

theorem keptIn_cons {c : Char} (hc : s.step c = some t) (rest : List Char) :
    s.keptIn shown (c :: rest)
      = (if shown s.mode then s.keeps c else []) ++ t.keptIn shown rest := by
  rw [keptIn, hc]

theorem keptIn_append {a : List Char} (ha : s.run a = some t) (b : List Char) :
    s.keptIn shown (a ++ b) = s.keptIn shown a ++ t.keptIn shown b := by
  induction a generalizing s with
  | nil =>
      obtain rfl := Option.some.inj ha
      rfl
  | cons c rest ih =>
      obtain ⟨next, hstep, hrest⟩ := exists_of_run_cons ha
      rw [List.cons_append, keptIn_cons shown hstep, keptIn_cons shown hstep, ih hrest,
        List.append_assoc]

theorem keptIn_under {text : List Char} (h : s.run text = some t) (outer : List Char)
    (before : List String) : (s.under outer before).keptIn shown text = s.keptIn shown text := by
  induction text generalizing s with
  | nil => rfl
  | cons c rest ih =>
      obtain ⟨next, hstep, hrest⟩ := exists_of_run_cons h
      rw [keptIn_cons shown hstep, keptIn_cons shown (step_under hstep outer before), ih hrest]
      rfl

/-- What is shown of what stays is part of it. -/
theorem keptIn_sublist_kept (s : State) (text : List Char) :
    (s.keptIn shown text).Sublist (s.kept text) := by
  induction text generalizing s with
  | nil => exact List.Sublist.refl _
  | cons c rest ih =>
      rw [keptIn, kept]
      cases s.step c with
      | none => exact List.Sublist.refl _
      | some next =>
          refine List.Sublist.append ?_ (ih next)
          split_ifs
          · exact List.Sublist.refl _
          · exact List.nil_sublist _

end Shown

theorem kept_eq_keptIn (s : State) (text : List Char) : s.kept text = s.keptIn (fun _ => true) text := by
  induction text generalizing s with
  | nil => rfl
  | cons c rest ih =>
      rw [keptIn, kept]
      cases s.step c with
      | none => rfl
      | some next => simp [ih]

theorem kept_cons {s t : State} {c : Char} (hc : s.step c = some t) (rest : List Char) :
    s.kept (c :: rest) = s.keeps c ++ t.kept rest := by
  rw [kept, hc]

theorem kept_append {s t : State} {a : List Char} (ha : s.run a = some t) (b : List Char) :
    s.kept (a ++ b) = s.kept a ++ t.kept b := by
  simp only [kept_eq_keptIn]
  exact keptIn_append _ ha b

theorem kept_under {s t : State} {text : List Char} (h : s.run text = some t) (outer : List Char)
    (before : List String) : (s.under outer before).kept text = s.kept text := by
  simp only [kept_eq_keptIn]
  exact keptIn_under _ h outer before

/-! ### Texts of which nothing is left -/

/-- A text leads from one state to another and leaves nothing on the way. -/
def Skips (s : State) (text : String) (t : State) : Prop :=
  s.Leads text t ∧ s.kept text.toList = []

instance (s : State) (text : String) (t : State) : Decidable (s.Skips text t) :=
  inferInstanceAs (Decidable (_ ∧ _))

theorem Skips.append {s t u : State} {text next : String} (h : s.Skips text t)
    (hnext : t.Skips next u) : s.Skips (text ++ next) u := by
  refine ⟨h.1.append hnext.1, ?_⟩
  rw [String.toList_append, kept_append h.1, h.2, hnext.2]
  rfl

/-! ### Ends of lines -/

/-- Line ends outside of strings and block comments are shown. -/
def ShowsLineEnds (shown : Mode → Bool) : Prop :=
  shown .code = true ∧ shown .slash = true ∧ shown .lineComment = true

/-- A line end that leads into code stays, at the end of what stays. -/
theorem exists_keptIn_of_lineEnd {shown : Mode → Bool} (hshown : ShowsLineEnds shown)
    {s t : State} {text : List Char} (hcode : t.mode = .code) (h : s.run (text ++ ['\n']) = some t) :
    ∃ front, s.keptIn shown (text ++ ['\n']) = front ++ ['\n'] := by
  rw [run_append] at h
  obtain ⟨before, htext, hend⟩ := Option.bind_eq_some_iff.mp h
  obtain ⟨after, hstep, hafter⟩ := exists_of_run_cons hend
  obtain rfl : after = t := Option.some.inj hafter
  rw [keptIn_append shown htext, keptIn_cons shown hstep]
  obtain ⟨mode, closers, literals⟩ := before
  -- Comments and strings do not let a line end lead into code.
  cases mode with
  | code => exact ⟨s.keptIn shown text, by simp [hshown.1, keeps, keptIn]⟩
  | slash => exact ⟨s.keptIn shown text ++ ['/'], by simp [hshown.2.1, keeps, keptIn]⟩
  | lineComment => exact ⟨s.keptIn shown text, by simp [hshown.2.2, keeps, keptIn]⟩
  | blockComment star =>
      obtain rfl := Option.some.inj hstep
      simp at hcode
  | string read => simp [step] at hstep
  | escape read => simp [step, escaped?] at hstep

end State

/-! ### Lines -/

theorem codeLines_lineEnd (front back : List Char) :
    codeLines (front ++ '\n' :: back) = codeLines front ++ codeLines back := by
  rw [codeLines, Text.pieces_lineEnd, List.filter_append, List.map_append]
  rfl

theorem codeLines_nil : codeLines [] = [] := by decide

theorem codeLines_blanks (n : Nat) : codeLines (List.replicate n ' ') = [] := by
  have hblank : '\n' ∉ List.replicate n ' ' := fun h => nomatch List.eq_of_mem_replicate h
  rw [codeLines, Text.pieces_of_not_mem hblank]
  simp

end TelemetryTypes.Lexical
