import TelemetryTypes.Text.Naming

/-!
# What casing writes

Pascal case keeps the ASCII letters and digits of a name and nothing else, so its outcome has
nothing in it but these, whatever the name has. What it starts with was put in upper case, so no word
that starts with a lower-case letter comes out of it.
-/

namespace TelemetryTypes.Text

/-! ### Upper case -/

theorem isUpper_iff_val {c : Char} : c.isUpper = true ↔ 'A'.val ≤ c.val ∧ c.val ≤ 'Z'.val :=
  decide_eq_true_iff

theorem isLower_iff_val {c : Char} : c.isLower = true ↔ 'a'.val ≤ c.val ∧ c.val ≤ 'z'.val :=
  (Bool.and_eq_true _ _).to_iff.trans (and_congr decide_eq_true_iff decide_eq_true_iff)

theorem isAlpha_eq (c : Char) : c.isAlpha = (c.isUpper || c.isLower) := rfl

theorem isUpper_iff_toNat {c : Char} : c.isUpper = true ↔ 65 ≤ c.toNat ∧ c.toNat ≤ 90 := by
  simp [isUpper_iff_val, UInt32.le_iff_toNat_le, ← Char.toNat_val]

theorem isLower_iff_toNat {c : Char} : c.isLower = true ↔ 97 ≤ c.toNat ∧ c.toNat ≤ 122 := by
  simp [isLower_iff_val, UInt32.le_iff_toNat_le, ← Char.toNat_val]

/-- Upper case is 32 places before lower case. -/
theorem toNat_toUpper {c : Char} (hlower : c.isLower = true) : c.toUpper.toNat = c.toNat - 32 := by
  have hbounds := isLower_iff_toNat.mp hlower
  have hcase := isLower_iff_val.mp hlower
  have hval : c.toUpper.val = c.val + ('A'.val - 'a'.val) := by
    unfold Char.toUpper
    rw [dif_pos hcase]
  have hadd : (c.val + ('A'.val - 'a'.val)).toNat = (c.toNat + 4294967264) % 2 ^ 32 := by
    rw [UInt32.toNat_add]
    rfl
  rw [← Char.toNat_val, hval, hadd]
  omega

theorem toUpper_of_not_isLower {c : Char} (hlower : c.isLower = false) : c.toUpper = c := by
  have hcase : ¬('a'.val ≤ c.val ∧ c.val ≤ 'z'.val) :=
    mt isLower_iff_val.mpr (ne_true_of_eq_false hlower)
  unfold Char.toUpper
  rw [dif_neg hcase]

theorem isLower_toUpper (c : Char) : c.toUpper.isLower = false := by
  cases hlower : c.isLower with
  | false => rw [toUpper_of_not_isLower hlower, hlower]
  | true =>
      have hbounds := isLower_iff_toNat.mp hlower
      rw [Bool.eq_false_iff, Ne, isLower_iff_toNat, toNat_toUpper hlower]
      omega

theorem isUpper_toUpper {c : Char} (hlower : c.isLower = true) : c.toUpper.isUpper = true := by
  have hbounds := isLower_iff_toNat.mp hlower
  rw [isUpper_iff_toNat, toNat_toUpper hlower]
  omega

theorem isAlpha_toUpper (c : Char) : c.toUpper.isAlpha = c.isAlpha := by
  cases hlower : c.isLower with
  | false => rw [toUpper_of_not_isLower hlower]
  | true => rw [isAlpha_eq, isAlpha_eq, isUpper_toUpper hlower, hlower, Bool.true_or, Bool.or_true]

theorem isAlphanum_toUpper {c : Char} (h : c.isAlphanum = true) : c.toUpper.isAlphanum = true := by
  cases hlower : c.isLower with
  | false => rwa [toUpper_of_not_isLower hlower]
  | true => simp [Char.isAlphanum, isAlpha_eq, isUpper_toUpper hlower]

/-! ### Identifiers -/

theorem isIdentifier_of_toList {name : String} {first : Char} {rest : List Char}
    (hname : name.toList = first :: rest) (hfirst : isIdentifierStart first = true)
    (hrest : ∀ x ∈ rest, isIdentifierPart x = true) : isIdentifier name = true := by
  rw [isIdentifier, hname, isIdentifierChars, hfirst, Bool.true_and, List.all_eq_true]
  exact hrest

theorem isIdentifierPart_of_isAlphanum {c : Char} (h : c.isAlphanum = true) :
    isIdentifierPart c = true := by
  simp [isIdentifierPart, h]

/-- A letter or digit that an identifier starts with is a letter. -/
theorem isAlpha_of_isIdentifierStart {c : Char} (h : c.isAlphanum = true)
    (hstart : isIdentifierStart c = true) : c.isAlpha = true := by
  simp only [isIdentifierStart, Bool.or_eq_true, beq_iff_eq] at hstart
  rcases hstart with (halpha | rfl) | rfl
  · exact halpha
  · cases h
  · cases h

/-! ### Pascal case -/

theorem pascalChars_of_isAlphanum {c : Char} (h : c.isAlphanum = true) (rest : List Char) :
    pascalChars true (c :: rest) = c.toUpper :: pascalChars false rest := by
  simp [pascalChars, h]

theorem isAlphanum_of_mem_pascalChars {starts : Bool} {chars : List Char} {c : Char}
    (hc : c ∈ pascalChars starts chars) : c.isAlphanum = true := by
  induction chars generalizing starts with
  | nil => cases hc
  | cons first rest ih =>
      rw [pascalChars] at hc
      cases hfirst : first.isAlphanum with
      | false =>
          rw [hfirst] at hc
          exact ih hc
      | true =>
          rw [hfirst, if_pos rfl] at hc
          rcases List.mem_cons.mp hc with rfl | hrest
          · cases starts with
            | false => exact hfirst
            | true => exact isAlphanum_toUpper hfirst
          · exact ih hrest

theorem isAlphanum_of_mem_pascalCase {name : String} {c : Char}
    (hc : c ∈ (pascalCase name).toList) : c.isAlphanum = true := by
  rw [pascalCase, String.toList_ofList] at hc
  exact isAlphanum_of_mem_pascalChars hc

/-- Pascal case never starts with a lower-case letter. -/
theorem isLower_of_head?_pascalChars {chars : List Char} {c : Char}
    (hc : (pascalChars true chars).head? = some c) : c.isLower = false := by
  induction chars with
  | nil => cases hc
  | cons first rest ih =>
      rw [pascalChars] at hc
      cases hfirst : first.isAlphanum with
      | false =>
          rw [hfirst] at hc
          exact ih hc
      | true =>
          rw [hfirst, if_pos rfl] at hc
          obtain rfl : first.toUpper = c := by simpa using hc
          exact isLower_toUpper first

theorem pascalCase_ne_of_isLower {word : String} {c : Char} (hword : word.toList.head? = some c)
    (hc : c.isLower = true) (name : String) : pascalCase name ≠ word := by
  rintro rfl
  rw [pascalCase, String.toList_ofList] at hword
  simp [isLower_of_head?_pascalChars hword] at hc

theorem pascalCase_not_mem {words : List String}
    (hwords : ∀ word ∈ words, word.toList.head?.any Char.isLower = true) (name : String) :
    pascalCase name ∉ words := by
  intro hmem
  have hlower := hwords _ hmem
  cases hhead : (pascalCase name).toList.head? with
  | none => simp [hhead] at hlower
  | some c =>
      rw [hhead] at hlower
      exact pascalCase_ne_of_isLower hhead hlower name rfl

end TelemetryTypes.Text
