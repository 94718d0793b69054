import Mathlib.Data.List.Basic

/-!
# Reading generated text

A scanner for the rules by which free text could escape from where it was written: comments to the
end of a line, comments to the first comment end, single-quoted strings with backslash escapes, and
code, which is everything else. Of code it keeps only the brackets that are open. It stops with a
fault at a bracket that closes nothing or something else, at a raw line end in a string, and at an
escape other than the five that literals use.

What a piece of text does to the scanner does not depend on the brackets around it nor on the
strings before it (`run_under`), so texts are read piece by piece: `Reads outer text inner literals`
says what one piece does, and `Reads.append` puts pieces together.
-/

namespace TelemetryTypes.Lexical

/-- What the scanner is in the middle of. -/
inductive Mode where
  | code
  /-- Behind a slash that may start a comment. -/
  | slash
  | lineComment
  /-- A block comment, and whether the last character was a star. -/
  | blockComment (star : Bool)
  | string (read : List Char)
  | escape (read : List Char)
  deriving DecidableEq

/-- The mode, the brackets that have to close, innermost first, and the strings read so far. -/
structure State where
  mode : Mode
  closers : List Char
  literals : List String
  deriving DecidableEq

def closer? : Char → Option Char
  | '(' => some ')'
  | '[' => some ']'
  | '\x7b' => some '\x7d'
  | _ => none

def isCloser (c : Char) : Bool := c == ')' || c == ']' || c == '\x7d'

/-- The brackets that have to close after a character of code, unless it closes the wrong one. -/
def closersAfter (closers : List Char) (c : Char) : Option (List Char) :=
  match closer? c with
  | some close => some (close :: closers)
  | none =>
    if isCloser c then (if closers.head? = some c then some closers.tail else none)
    else some closers

def isLineEnd (c : Char) : Bool := c == '\n' || c == '\r' || c == '\u2028' || c == '\u2029'

def escaped? : Char → Option Char
  | '\\' => some '\\'
  | '\'' => some '\''
  | 'n' => some '\n'
  | 'r' => some '\r'
  | 't' => some '\t'
  | _ => none

namespace State

def start : State := ⟨.code, [], []⟩

def stepCode (s : State) (c : Char) : Option State :=
  if c = '/' then some { s with mode := .slash }
  else if c = '\'' then some { s with mode := .string [] }
  else (closersAfter s.closers c).map fun closers => { s with mode := .code, closers }

def step (s : State) (c : Char) : Option State :=
  match s.mode with
  | .code => s.stepCode c
  | .slash =>
    if c = '/' then some { s with mode := .lineComment }
    else if c = '*' then some { s with mode := .blockComment false }
    else s.stepCode c
  | .lineComment => some { s with mode := if isLineEnd c then .code else .lineComment }
  | .blockComment star =>
    some { s with mode := if star && c == '/' then .code else .blockComment (c == '*') }
  | .string read =>
    if c = '\'' then some { s with mode := .code, literals := s.literals ++ [String.ofList read] }
    else if c = '\\' then some { s with mode := .escape read }
    else if c = '\n' ∨ c = '\r' then none
    else some { s with mode := .string (read ++ [c]) }
  | .escape read => (escaped? c).map fun e => { s with mode := .string (read ++ [e]) }

def run (s : State) (text : List Char) : Option State := text.foldlM step s

end State

/-- The state after a whole text, if there is no fault in it. -/
def scan (text : String) : Option State := State.start.run text.toList

example : scan "f(['it\\'s']) /* ' */ // don't\n" = some ⟨.code, [], ["it's"]⟩ := by decide

example : scan "'two\nlines'" = none := by decide

namespace State

theorem run_append (s : State) (a b : List Char) : s.run (a ++ b) = (s.run a).bind (run · b) :=
  List.foldlM_append

theorem run_append_of_eq {s t : State} {a : List Char} (ha : s.run a = some t) (b : List Char) :
    s.run (a ++ b) = t.run b := by
  rw [run_append, ha, Option.bind_some]

theorem run_cons_of_eq {s t : State} {c : Char} (hc : s.step c = some t) (text : List Char) :
    s.run (c :: text) = t.run text := by
  rw [run, List.foldlM_cons, hc]
  rfl

theorem exists_of_run_cons {s t : State} {c : Char} {rest : List Char}
    (h : s.run (c :: rest) = some t) : ∃ next, s.step c = some next ∧ next.run rest = some t := by
  rw [run, List.foldlM_cons] at h
  exact Option.bind_eq_some_iff.mp h

/-! ### What stands around a text -/

/-- A state with more brackets around it and more strings before it. -/
def under (s : State) (outer : List Char) (before : List String) : State :=
  { s with closers := s.closers ++ outer, literals := before ++ s.literals }

theorem closersAfter_append {closers after : List Char} {c : Char}
    (h : closersAfter closers c = some after) (outer : List Char) :
    closersAfter (closers ++ outer) c = some (after ++ outer) := by
  unfold closersAfter at h ⊢
  cases hopen : closer? c with
  | some close =>
      rw [hopen] at h
      obtain rfl := Option.some.inj h
      rfl
  | none =>
      rw [hopen] at h
      cases hclose : isCloser c with
      | false =>
          simp only [hclose, Bool.false_eq_true, if_false] at h ⊢
          rw [Option.some.inj h]
      | true =>
          simp only [hclose, if_true] at h ⊢
          cases closers with
          | nil => cases h
          | cons top rest =>
              rw [List.head?_cons] at h
              rw [List.cons_append, List.head?_cons]
              split at h
              · next htop =>
                  rw [if_pos htop]
                  rw [← Option.some.inj h]
                  rfl
              · cases h

theorem stepCode_under {s t : State} {c : Char} (h : s.stepCode c = some t) (outer : List Char)
    (before : List String) : (s.under outer before).stepCode c = some (t.under outer before) := by
  unfold stepCode at h ⊢
  split_ifs at h ⊢ with hslash hquote
  · rw [← Option.some.inj h]
    rfl
  · rw [← Option.some.inj h]
    rfl
  · obtain ⟨after, hafter, rfl⟩ := Option.map_eq_some_iff.mp h
    rw [under, closersAfter_append hafter]
    rfl

theorem step_under {s t : State} {c : Char} (h : s.step c = some t) (outer : List Char)
    (before : List String) : (s.under outer before).step c = some (t.under outer before) := by
  -- Only code touches the brackets, and only the end of a string touches the strings before it.
  obtain ⟨mode, closers, literals⟩ := s
  cases mode with
  | code => exact stepCode_under h outer before
  | slash =>
      simp only [step, under] at h ⊢
      split_ifs at h ⊢ with hslash hstar
      · rw [← Option.some.inj h]
      · rw [← Option.some.inj h]
      · exact stepCode_under h outer before
  | lineComment =>
      rw [← Option.some.inj h]
      rfl
  | blockComment star =>
      rw [← Option.some.inj h]
      rfl
  | string read =>
      simp only [step, under] at h ⊢
      split_ifs at h ⊢ with hquote hbackslash
      · rw [← Option.some.inj h, List.append_assoc]
      · rw [← Option.some.inj h]
      · rw [← Option.some.inj h]
  | escape read =>
      obtain ⟨e, he, rfl⟩ := Option.map_eq_some_iff.mp h
      simp only [step, under, he, Option.map_some]

theorem run_under {s t : State} {text : List Char} (h : s.run text = some t) (outer : List Char)
    (before : List String) : (s.under outer before).run text = some (t.under outer before) := by
  induction text generalizing s with
  | nil =>
      obtain rfl := Option.some.inj h
      rfl
  | cons c rest ih =>
      obtain ⟨next, hstep, hrest⟩ := exists_of_run_cons h
      rw [run_cons_of_eq (step_under hstep outer before)]
      exact ih hrest

end State

/-! ### Pieces of text -/

/-- A text leads the scanner from one state to another. -/
def State.Leads (s : State) (text : String) (t : State) : Prop := s.run text.toList = some t

instance (s : State) (text : String) (t : State) : Decidable (s.Leads text t) :=
  inferInstanceAs (Decidable (_ = _))

namespace State.Leads

variable {s t u : State} {text : String}

theorem append {next : String} (h : s.Leads text t) (hnext : t.Leads next u) :
    s.Leads (text ++ next) u := by
  rw [Leads, String.toList_append, run_append_of_eq h]
  exact hnext

theorem under (h : s.Leads text t) (outer : List Char) (before : List String) :
    (s.under outer before).Leads text (t.under outer before) :=
  run_under h outer before

end State.Leads

/-- Read as code, a text leads from the brackets `outer` to the brackets `inner` and has the strings
`literals`. -/
def Reads (outer : List Char) (text : String) (inner : List Char) (literals : List String) : Prop :=
  State.Leads ⟨.code, outer, []⟩ text ⟨.code, inner, literals⟩

instance (outer : List Char) (text : String) (inner : List Char) (literals : List String) :
    Decidable (Reads outer text inner literals) :=
  inferInstanceAs (Decidable (State.Leads _ _ _))

theorem scan_eq_of_reads {text : String} {literals : List String} (h : Reads [] text [] literals) :
    scan text = some ⟨.code, [], literals⟩ := h

namespace Reads

variable {outer inner : List Char} {text : String} {literals : List String}

theorem under (h : Reads outer text inner literals) (around : List Char) :
    Reads (outer ++ around) text (inner ++ around) literals :=
  State.Leads.under h around []

theorem append {next : String} {last : List Char} {more : List String}
    (h : Reads outer text inner literals) (hnext : Reads inner next last more) :
    Reads outer (text ++ next) last (literals ++ more) := by
  have hmore := State.Leads.under hnext [] literals
  simp only [State.under, List.append_nil] at hmore
  exact State.Leads.append h hmore

end Reads

end TelemetryTypes.Lexical
