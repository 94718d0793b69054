import TelemetryTypes.Declaration.Source
import TelemetryTypes.Proofs.Lexical.Scanner
import TelemetryTypes.Proofs.Text.Casing

/-!
# Names, literals and keys as they are read

Three routes lead from a document into code: a type name stands bare, a value stands in quotes, and
a property key stands bare or in quotes. A bare name has nothing in it that the scanner acts on, and
a literal is read back as the value it was made from, whatever characters that has.
-/

namespace TelemetryTypes.Lexical

open Text (escapeLiteral isIdentifier isIdentifierPart literal literalChars pascalCase propertyKey)

/-! ### Plain text -/

/-- The characters of code that the scanner acts on. -/
def specials : List Char := ['/', '\'', '(', '[', '\x7b', ')', ']', '\x7d']

def isPlain (c : Char) : Bool := !specials.contains c

/-- A text that the scanner passes over. -/
def Plain (text : String) : Prop := text.toList.all isPlain = true

instance (text : String) : Decidable (Plain text) := inferInstanceAs (Decidable (_ = _))

theorem plain_iff {text : String} : Plain text ↔ ∀ c ∈ text.toList, isPlain c = true :=
  List.all_eq_true

theorem Plain.append {a b : String} (ha : Plain a) (hb : Plain b) : Plain (a ++ b) := by
  rw [plain_iff] at ha hb ⊢
  intro c hc
  rw [String.toList_append, List.mem_append] at hc
  exact hc.elim (ha c) (hb c)

theorem State.step_of_isPlain {c : Char} (hplain : isPlain c = true) (outer : List Char)
    (before : List String) : step ⟨.code, outer, before⟩ c = some ⟨.code, outer, before⟩ := by
  have hnot : c ∉ specials := by simpa [isPlain] using hplain
  simp only [specials, List.mem_cons, List.not_mem_nil, or_false, not_or] at hnot
  obtain ⟨hslash, hquote, hparen, hbracket, hbrace, hclose⟩ := hnot
  have hopen : closer? c = none := by
    unfold closer?
    split <;> first | contradiction | rfl
  have hcloser : isCloser c = false := by simp [isCloser, hclose]
  have hcode : closersAfter outer c = some outer := by simp [closersAfter, hopen, hcloser]
  rw [step, stepCode, if_neg hslash, if_neg hquote, hcode]
  rfl

theorem State.run_of_isPlain {chars : List Char} (h : ∀ c ∈ chars, isPlain c = true)
    (outer : List Char) (before : List String) :
    run ⟨.code, outer, before⟩ chars = some ⟨.code, outer, before⟩ := by
  induction chars with
  | nil => rfl
  | cons c rest ih =>
      rw [run_cons_of_eq (step_of_isPlain (h c List.mem_cons_self) outer before)]
      exact ih fun d hd => h d (List.mem_cons_of_mem c hd)

theorem Reads.plain {text : String} (h : Plain text) (outer : List Char) :
    Reads outer text outer [] :=
  State.run_of_isPlain (plain_iff.mp h) outer []

theorem isPlain_of_isIdentifierPart {c : Char} (h : isIdentifierPart c = true) :
    isPlain c = true := by
  by_contra hspecial
  have hmem : c ∈ specials := by simpa [isPlain] using hspecial
  have hnone : specials.all (!isIdentifierPart ·) = true := by decide
  have hpart := List.all_eq_true.mp hnone c hmem
  simp [h] at hpart

/-- A text of the characters that identifiers have. -/
def Word (text : String) : Prop := text.toList.all isIdentifierPart = true

instance (text : String) : Decidable (Word text) := inferInstanceAs (Decidable (_ = _))

theorem word_iff {text : String} : Word text ↔ ∀ c ∈ text.toList, isIdentifierPart c = true :=
  List.all_eq_true

theorem Word.plain {text : String} (h : Word text) : Plain text :=
  plain_iff.mpr fun c hc => isPlain_of_isIdentifierPart (word_iff.mp h c hc)

theorem word_of_isIdentifier {name : String} (h : isIdentifier name = true) : Word name := by
  rw [word_iff]
  intro c hc
  cases hchars : name.toList with
  | nil =>
      rw [hchars] at hc
      cases hc
  | cons first rest =>
      rw [isIdentifier, hchars, Text.isIdentifierChars, Bool.and_eq_true] at h
      rw [hchars] at hc
      rcases List.mem_cons.mp hc with rfl | hrest
      · exact Text.isIdentifierPart_of_start h.1
      · exact List.all_eq_true.mp h.2 c hrest

theorem word_pascalCase (name : String) : Word (pascalCase name) := by
  rw [word_iff]
  intro c hc
  simp [isIdentifierPart, Text.isAlphanum_of_mem_pascalCase hc]

/-! ### Literals -/

/-- In a literal a character stands for itself, or has an escape of one letter or sign. -/
theorem escapeLiteral_cases (c : Char) :
    (escapeLiteral c = [c] ∧ c ∉ ['\'', '\\', '\n', '\r', '\t'])
      ∨ ∃ e, escapeLiteral c = ['\\', e] ∧ escaped? e = some c := by
  unfold escapeLiteral
  split_ifs with hbackslash hquote hfeed hreturn htab
  · exact .inr ⟨'\\', rfl, congrArg some hbackslash.symm⟩
  · exact .inr ⟨'\'', rfl, congrArg some hquote.symm⟩
  · exact .inr ⟨'n', rfl, congrArg some hfeed.symm⟩
  · exact .inr ⟨'r', rfl, congrArg some hreturn.symm⟩
  · exact .inr ⟨'t', rfl, congrArg some htab.symm⟩
  · exact .inl ⟨rfl, by simp [hbackslash, hquote, hfeed, hreturn, htab]⟩

/-- What would end or blur a line is not written as it is. -/
theorem not_control_of_mem_literal {value : String} {x : Char} (h : x ∈ (literal value).toList) :
    x ∉ ['\n', '\r', '\t'] := by
  have hescape (c : Char) : ∀ x ∈ escapeLiteral c, x ∉ ['\n', '\r', '\t'] := by
    rcases escapeLiteral_cases c with ⟨hself, hnot⟩ | ⟨e, hescape, hmeant⟩
    · rw [hself, List.forall_mem_singleton]
      exact mt (List.mem_append_right ['\'', '\\']) hnot
    · have hmark : e ∉ ['\n', '\r', '\t'] := by
        intro hmem
        simp only [List.mem_cons, List.not_mem_nil, or_false] at hmem
        rcases hmem with rfl | rfl | rfl
        · cases hmeant
        · cases hmeant
        · cases hmeant
      rw [hescape, List.forall_mem_cons, List.forall_mem_singleton]
      exact ⟨by decide, hmark⟩
  rw [Text.toList_literal, literalChars, List.mem_cons, List.mem_append, List.mem_flatMap,
    List.mem_singleton] at h
  rcases h with rfl | ⟨c, -, hx⟩ | rfl
  · decide
  · exact hescape c x hx
  · decide

theorem State.run_escapeLiteral (read : List Char) (outer : List Char) (before : List String)
    (c : Char) :
    run ⟨.string read, outer, before⟩ (escapeLiteral c)
      = some ⟨.string (read ++ [c]), outer, before⟩ := by
  rcases escapeLiteral_cases c with ⟨hself, hnot⟩ | ⟨e, hescape, hmeant⟩
  · simp only [List.mem_cons, List.not_mem_nil, or_false, not_or] at hnot
    have hstep : step ⟨.string read, outer, before⟩ c
        = some ⟨.string (read ++ [c]), outer, before⟩ := by
      simp [step, hnot]
    rw [hself, run_cons_of_eq hstep]
    rfl
  · have hopen : step ⟨.string read, outer, before⟩ '\\'
        = some ⟨.escape read, outer, before⟩ := rfl
    have hmeans : step ⟨.escape read, outer, before⟩ e
        = some ⟨.string (read ++ [c]), outer, before⟩ := by
      simp [step, hmeant]
    rw [hescape, run_cons_of_eq hopen, run_cons_of_eq hmeans]
    rfl

theorem State.run_flatMap_escapeLiteral (read : List Char) (outer : List Char)
    (before : List String) (chars : List Char) :
    run ⟨.string read, outer, before⟩ (chars.flatMap escapeLiteral)
      = some ⟨.string (read ++ chars), outer, before⟩ := by
  induction chars generalizing read with
  | nil => rw [List.append_nil]; rfl
  | cons c rest ih =>
      rw [List.flatMap_cons, run_append_of_eq (run_escapeLiteral read outer before c), ih,
        List.append_assoc, List.singleton_append]

/-- A literal is read back as the value it was made from. -/
theorem Reads.literal (outer : List Char) (value : String) :
    Reads outer (literal value) outer [value] := by
  have hopen : State.step ⟨.code, outer, []⟩ '\'' = some ⟨.string [], outer, []⟩ := rfl
  have hclose : State.step ⟨.string value.toList, outer, []⟩ '\''
      = some ⟨.code, outer, [value]⟩ := by
    simp [State.step]
  rw [Reads, State.Leads, Text.toList_literal, literalChars, State.run_cons_of_eq hopen,
    State.run_append_of_eq (State.run_flatMap_escapeLiteral [] outer [] value.toList),
    List.nil_append, State.run_cons_of_eq hclose]
  rfl

/-- The strings that a property key is written with. -/
def quotedKey (name : String) : List String := if isIdentifier name then [] else [name]

theorem Reads.propertyKey (outer : List Char) (name : String) :
    Reads outer (propertyKey name) outer (quotedKey name) := by
  unfold Text.propertyKey quotedKey
  split_ifs with hname
  · exact plain (word_of_isIdentifier hname).plain outer
  · exact literal outer name

theorem Reads.literalList {separator : String} (hplain : Plain separator) (outer : List Char)
    (values : List String) :
    Reads outer (Source.literalList separator values) outer values := by
  induction values with
  | nil => rfl
  | cons value rest ih =>
      cases rest with
      | nil =>
          rw [Source.literalList, List.map_cons, List.map_nil, String.intercalate_singleton]
          exact literal outer value
      | cons next more =>
          rw [Source.literalList, List.map_cons, List.map_cons, String.intercalate_cons_cons]
          exact ((literal outer value).append (plain hplain outer)).append ih

end TelemetryTypes.Lexical
