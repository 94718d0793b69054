import Mathlib
import TelemetryTypes.Proofs.Text.Casing

/-!
# Pascal case word by word

Names are put in Pascal case by a walk over their characters that remembers whether the next letter
or digit starts a word. Two laws say what the walk comes to: whatever stands between words is
dropped, so that the words on its sides are cased by themselves, and a single word gets its first
character in upper case. Every name is made of words and what stands between them, so the rest
follows: what is left of a name are its letters and digits, in their order and up to their case, and
casing them again changes nothing.
-/

namespace TelemetryTypes.Text

variable {starts : Bool} {chars : List Char}

/-! ### Words and what stands between them -/

theorem pascalChars_of_not_isAlphanum {c : Char} (h : c.isAlphanum = false) (rest : List Char) :
    pascalChars starts (c :: rest) = pascalChars true rest := by
  rw [pascalChars, h]
  rfl

/-- A character between words ends the word before it, and the next one starts anew. -/
theorem pascalChars_append_cons {c : Char} (h : c.isAlphanum = false) (front back : List Char) :
    pascalChars starts (front ++ c :: back) = pascalChars starts front ++ pascalChars true back := by
  induction front generalizing starts with
  | nil => exact pascalChars_of_not_isAlphanum h back
  | cons first rest ih =>
      rw [List.cons_append, pascalChars, pascalChars, ih, ih]
      split
      · rfl
      · rfl

theorem pascalChars_separator_append {separator : List Char}
    (h : ∀ c ∈ separator, c.isAlphanum = false) (back : List Char) :
    pascalChars true (separator ++ back) = pascalChars true back := by
  induction separator with
  | nil => rfl
  | cons c rest ih =>
      rw [List.forall_mem_cons] at h
      rw [List.cons_append, pascalChars_of_not_isAlphanum h.1, ih h.2]

/-- Behind its first character a word is left as it is. -/
theorem pascalChars_false_of_isAlphanum (h : ∀ c ∈ chars, c.isAlphanum = true) :
    pascalChars false chars = chars := by
  induction chars with
  | nil => rfl
  | cons c rest ih =>
      rw [List.forall_mem_cons] at h
      rw [pascalChars, h.1, if_pos rfl, ih h.2]
      rfl

/-- A word gets its first character in upper case. -/
theorem pascalChars_word {first : Char} {rest : List Char}
    (h : ∀ c ∈ first :: rest, c.isAlphanum = true) :
    pascalChars true (first :: rest) = first.toUpper :: rest := by
  rw [List.forall_mem_cons] at h
  rw [pascalChars_of_isAlphanum h.1, pascalChars_false_of_isAlphanum h.2]

/-! ### What is left of a name -/

theorem map_toLower_pascalChars (starts : Bool) (chars : List Char) :
    (pascalChars starts chars).map Char.toLower
      = (chars.filter Char.isAlphanum).map Char.toLower := by
  induction chars generalizing starts with
  | nil => rfl
  | cons c rest ih =>
      cases hc : c.isAlphanum with
      | false => rw [pascalChars_of_not_isAlphanum hc, List.filter_cons_of_neg (by simp [hc]), ih]
      | true =>
          have hcase : (if starts = true then c.toUpper else c).toLower = c.toLower := by
            split
            · exact Char.toLower_toUpper_eq_toLower c
            · rfl
          rw [pascalChars, hc, if_pos rfl, List.filter_cons_of_pos hc, List.map_cons, List.map_cons,
            hcase, ih]

theorem head?_pascalChars (chars : List Char) :
    (pascalChars true chars).head? = (chars.find? Char.isAlphanum).map Char.toUpper := by
  induction chars with
  | nil => rfl
  | cons c rest ih =>
      cases hc : c.isAlphanum with
      | false => rw [pascalChars_of_not_isAlphanum hc, ih, List.find?_cons_of_neg (by simp [hc])]
      | true => rw [pascalChars_of_isAlphanum hc, List.find?_cons_of_pos hc]; rfl

/-- Of letters and digits, it takes a letter in front to make an identifier. -/
theorem isIdentifierChars_of_isAlphanum (h : ∀ c ∈ chars, c.isAlphanum = true) :
    isIdentifierChars chars = chars.head?.any Char.isAlpha := by
  cases chars with
  | nil => rfl
  | cons first rest =>
      rw [List.forall_mem_cons] at h
      have hrest : rest.all isIdentifierPart = true :=
        List.all_eq_true.mpr fun c hc => isIdentifierPart_of_isAlphanum (h.2 c hc)
      have hfirst : isIdentifierStart first = first.isAlpha := by
        rw [Bool.eq_iff_iff]
        exact ⟨isAlpha_of_isIdentifierStart h.1, fun hletter => by simp [isIdentifierStart, hletter]⟩
      rw [isIdentifierChars, hrest, Bool.and_true, hfirst]
      rfl

theorem pascalChars_pascalChars (chars : List Char) :
    pascalChars true (pascalChars true chars) = pascalChars true chars := by
  cases hcased : pascalChars true chars with
  | nil => rfl
  | cons first rest =>
      have halphanum : ∀ c ∈ first :: rest, c.isAlphanum = true := fun c hc =>
        isAlphanum_of_mem_pascalChars (hcased ▸ hc)
      have hupper : first.isLower = false :=
        isLower_of_head?_pascalChars (by rw [hcased, List.head?_cons])
      rw [pascalChars_word halphanum, toUpper_of_not_isLower hupper]

/-- What Pascal case leaves of a name, said of its characters and without its words. -/
structure CasedFrom (name cased : String) : Prop where
  isAlphanum : ∀ c ∈ cased.toList, c.isAlphanum = true
  same_letters : cased.toList.map Char.toLower
    = (name.toList.filter Char.isAlphanum).map Char.toLower
  eq_empty_iff : cased = "" ↔ ∀ c ∈ name.toList, c.isAlphanum = false
  /-- It is an identifier if the first letter or digit of the name is a letter. -/
  isIdentifier_eq : isIdentifier cased = (name.toList.find? Char.isAlphanum).any Char.isAlpha
  settled : pascalCase cased = cased

theorem casedFrom_pascalCase (name : String) : CasedFrom name (pascalCase name) where
  isAlphanum _ hc := isAlphanum_of_mem_pascalCase hc
  same_letters := by rw [pascalCase, String.toList_ofList, map_toLower_pascalChars]
  eq_empty_iff := by
    have hlower := map_toLower_pascalChars true name.toList
    constructor
    · intro hempty
      rw [pascalCase, String.ofList_eq_empty_iff] at hempty
      rw [hempty, List.map_nil, eq_comm, List.map_eq_nil_iff, List.filter_eq_nil_iff] at hlower
      exact fun c hc => Bool.eq_false_iff.mpr (hlower c hc)
    · intro hnone
      have hfilter : name.toList.filter Char.isAlphanum = [] :=
        List.filter_eq_nil_iff.mpr fun c hc => ne_true_of_eq_false (hnone c hc)
      rw [hfilter, List.map_nil, List.map_eq_nil_iff] at hlower
      rw [pascalCase, hlower]
  isIdentifier_eq := by
    rw [isIdentifier, pascalCase, String.toList_ofList,
      isIdentifierChars_of_isAlphanum fun c hc => isAlphanum_of_mem_pascalChars hc,
      head?_pascalChars]
    cases name.toList.find? Char.isAlphanum with
    | none => rfl
    | some c => exact isAlpha_toUpper c
  settled := by
    rw [pascalCase, pascalCase, String.toList_ofList, pascalChars_pascalChars]

/-- **Pascal case is cased word by word.** What stands between two texts and has no letter or digit
in it is dropped, and the texts are cased by themselves; a word gets its first character in upper
case and is otherwise kept. So of every name its letters and digits are left, up to the case of some,
in an identifier exactly if a letter comes first, and they are not changed again. -/
theorem pascalCase_word_by_word :
    (∀ front separator back : String, separator ≠ "" →
        (∀ c ∈ separator.toList, c.isAlphanum = false) →
          pascalCase (front ++ separator ++ back) = pascalCase front ++ pascalCase back)
      ∧ (∀ word first rest, word.toList = first :: rest →
        (∀ c ∈ word.toList, c.isAlphanum = true) →
          (pascalCase word).toList = first.toUpper :: rest)
      ∧ ∀ name, CasedFrom name (pascalCase name) := by
  refine ⟨?_, ?_, casedFrom_pascalCase⟩
  · intro front separator back hne hseparator
    obtain ⟨c, rest, hchars⟩ : ∃ c rest, separator.toList = c :: rest :=
      List.exists_cons_of_ne_nil (mt String.toList_eq_nil_iff.mp hne)
    rw [hchars, List.forall_mem_cons] at hseparator
    rw [pascalCase, String.toList_append, String.toList_append, hchars, List.append_assoc,
      List.cons_append, pascalChars_append_cons hseparator.1,
      pascalChars_separator_append hseparator.2, String.ofList_append]
    rfl
  · intro word first rest hword halphanum
    rw [hword] at halphanum
    rw [pascalCase, String.toList_ofList, hword, pascalChars_word halphanum]

theorem pascalCase_word_by_word_sample :
    pascalCase ("lambda" ++ "_é-" ++ "2Invoke") = pascalCase "lambda" ++ pascalCase "2Invoke"
      ∧ (pascalCase "lambda").toList = 'L' :: "ambda".toList :=
  ⟨pascalCase_word_by_word.1 "lambda" "_é-" "2Invoke" (by decide) (by simp),
    pascalCase_word_by_word.2.1 "lambda" 'l' "ambda".toList rfl (by simp)⟩

end TelemetryTypes.Text
