import Mathlib.Data.List.DropRight
import TelemetryTypes.Proofs.Lexical.TextLines

/-!
# How texts begin and end

A line of code begins with neither a blank nor a brace that closes, and ends with no blank; both are
seen at its edges, whatever stands between. Words, keys and literals have such edges, a list of
literals has them if there is one in it, and what a comment says on a line ends as it should because
the blanks at its end are gone.
-/

namespace TelemetryTypes.Lexical

open Text (isBlank isIdentifier isIdentifierPart literal propertyKey)

/-- A character that code begins with, if it closes nothing. -/
def begins (c : Char) : Bool := !isBlank c && c != '\x7d'

def Begins (text : String) : Prop := text.toList.head?.any begins = true

instance (text : String) : Decidable (Begins text) := inferInstanceAs (Decidable (_ = _))

/-- A text that ends, and not with a blank. -/
def Ends (text : String) : Prop := text.toList.getLast?.any (!isBlank ·) = true

instance (text : String) : Decidable (Ends text) := inferInstanceAs (Decidable (_ = _))

theorem begins_iff {text : String} :
    Begins text ↔ ∃ c rest, text.toList = c :: rest ∧ begins c = true := by
  rw [Begins]
  cases text.toList with
  | nil => simp
  | cons c rest => simp

theorem ends_iff {text : String} :
    Ends text ↔ ∃ before c, text.toList = before ++ [c] ∧ isBlank c = false := by
  rw [Ends]
  cases text.toList using List.reverseRecOn with
  | nil => simp
  | append_singleton before c => simp

theorem Begins.append {a : String} (h : Begins a) (b : String) : Begins (a ++ b) := by
  obtain ⟨c, rest, ha, hc⟩ := begins_iff.mp h
  exact begins_iff.mpr ⟨c, rest ++ b.toList, by rw [String.toList_append, ha]; rfl, hc⟩

theorem Ends.append {b : String} (h : Ends b) (a : String) : Ends (a ++ b) := by
  obtain ⟨before, c, hb, hc⟩ := ends_iff.mp h
  exact ends_iff.mpr ⟨a.toList ++ before, c, by simp [hb], hc⟩

/-! ### Words, keys and literals -/

theorem isBlank_of_isIdentifierPart {c : Char} (h : isIdentifierPart c = true) :
    isBlank c = false := by
  have hrange : 0x24 ≤ c.toNat ∧ c.toNat ≤ 0x7A := by
    simp only [isIdentifierPart, Char.isAlphanum, Text.isAlpha_eq, Bool.or_eq_true,
      Text.isUpper_iff_toNat, Text.isLower_iff_toNat, Char.isDigit_iff_toNat, beq_iff_eq] at h
    rcases h with (((hupper | hlower) | hdigit) | rfl) | rfl
    · omega
    · omega
    · change 48 ≤ c.toNat ∧ c.toNat ≤ 57 at hdigit
      omega
    · decide
    · decide
  simp only [isBlank, Bool.or_eq_false_iff, Bool.and_eq_false_iff, decide_eq_false_iff_not,
    beq_eq_false_iff_ne]
  omega

theorem begins_of_isIdentifierPart {c : Char} (h : isIdentifierPart c = true) :
    begins c = true := by
  have hclose : c ≠ '\x7d' := by
    rintro rfl
    exact absurd h (by decide)
  simp [begins, isBlank_of_isIdentifierPart h, hclose]

theorem exists_of_isIdentifier {name : String} (h : isIdentifier name = true) :
    ∃ c rest, name.toList = c :: rest := by
  cases hchars : name.toList with
  | nil => simp [isIdentifier, hchars, Text.isIdentifierChars] at h
  | cons c rest => exact ⟨c, rest, rfl⟩

theorem begins_propertyKey (name : String) : Begins (propertyKey name) := by
  unfold propertyKey
  split_ifs with hname
  · obtain ⟨c, rest, hchars⟩ := exists_of_isIdentifier hname
    have hpart := word_iff.mp (word_of_isIdentifier hname) c (by simp [hchars])
    exact begins_iff.mpr ⟨c, rest, hchars, begins_of_isIdentifierPart hpart⟩
  · exact begins_iff.mpr ⟨'\'', _, Text.toList_literal name, by decide⟩

theorem ends_of_isIdentifier {name : String} (h : isIdentifier name = true) : Ends name := by
  obtain ⟨c, rest, hchars⟩ := exists_of_isIdentifier h
  rcases List.eq_nil_or_concat name.toList with hnone | ⟨before, last, hlast⟩
  · rw [hchars] at hnone
    cases hnone
  · have hpart := word_iff.mp (word_of_isIdentifier h) last (by simp [hlast])
    exact ends_iff.mpr ⟨before, last, by simpa using hlast, isBlank_of_isIdentifierPart hpart⟩

theorem ends_literal (value : String) : Ends (literal value) :=
  ends_iff.mpr ⟨'\'' :: value.toList.flatMap Text.escapeLiteral, '\'', Text.toList_literal value,
    by decide⟩

theorem ends_literalList (separator : String) {values : List String} (h : values ≠ []) :
    Ends (Source.literalList separator values) := by
  induction values with
  | nil => exact absurd rfl h
  | cons value rest ih =>
      cases rest with
      | nil =>
          rw [Source.literalList, List.map_cons, List.map_nil, String.intercalate_singleton]
          exact ends_literal value
      | cons next more =>
          rw [Source.literalList, List.map_cons, List.map_cons, String.intercalate_cons_cons]
          exact (ih (List.cons_ne_nil next more)).append _

/-! ### Comments -/

/-- Taking comment ends apart leaves the last character where it is. -/
theorem getLast?_escapeEnds (chars : List Char) :
    (Comment.escapeEnds chars).getLast? = chars.getLast? := by
  induction chars using Comment.escapeEnds.induct with
  | case1 rest ih =>
      rw [Comment.escapeEnds]
      simp [List.getLast?_cons, ih]
  | case2 c rest hends ih =>
      rw [Comment.escapeEnds]
      · simp [List.getLast?_cons, ih]
      · exact hends
  | case3 => rfl

theorem Comment.Said.ends {chars : List Char} (h : Comment.Said chars) (hne : chars ≠ []) :
    Ends (String.ofList chars) := by
  obtain ⟨raw, -, rfl⟩ := h
  have htrimmed : Text.trimEnd raw ≠ [] := by
    intro hnone
    rw [hnone] at hne
    exact hne rfl
  have hlast : ¬isBlank ((Text.trimEnd raw).getLast htrimmed) = true :=
    List.rdropWhile_last_not isBlank raw htrimmed
  rw [Ends, String.toList_ofList, getLast?_escapeEnds, List.getLast?_eq_some_getLast htrimmed]
  simpa using hlast

/-- No line of a comment ends with a blank. -/
theorem ends_of_mem_comment {depth : Nat} {text : Option String} {deprecated : Bool}
    {l : SourceLine} (hl : l ∈ Comment.lines depth text deprecated) : Ends l.text := by
  have hopen : Ends "/**" := by decide
  have hend : Ends " */" := by decide
  have hbare : Ends " *" := by decide
  obtain hnone | ⟨said, -, hlines⟩ | ⟨middle, hsaid, hlines⟩ :=
    Comment.lines_cases depth text deprecated
  · rw [hnone] at hl
    cases hl
  · rw [hlines] at hl
    rw [List.mem_singleton.mp hl]
    exact hend.append _
  · rw [hlines] at hl
    simp only [List.mem_append, List.mem_singleton, List.mem_map] at hl
    rcases hl with (rfl | ⟨said, hmem, rfl⟩) | rfl
    · exact hopen
    · unfold Comment.decorated
      cases said with
      | nil => exact hbare
      | cons c rest => exact ((hsaid _ hmem).ends (List.cons_ne_nil c rest)).append " * "
    · exact hend

end TelemetryTypes.Lexical
