import TelemetryTypes.Schema.Basic

/-!
# Which texts match a pattern

A pattern is tried from the left and a part that stands for any number of characters is tried at
every place. `Pattern.holds_iff` says what this finds: whether the text can be cut into pieces of
which each is what its part stands for.
-/

namespace TelemetryTypes.Schema

/-- Whether a piece of text is what a part stands for. -/
def Part.Matches : Part → List Char → Prop
  | one c, piece => ∃ x, piece = [x] ∧ c.has x = true
  | any c, piece => ∀ x ∈ piece, c.has x = true
  | some c, piece => piece ≠ [] ∧ ∀ x ∈ piece, c.has x = true

namespace Pattern

/-- Whether a text is made of pieces that match the parts, one for each. -/
def Matches : Pattern → List Char → Prop
  | [], s => s = []
  | part :: parts, s => ∃ piece rest, s = piece ++ rest ∧ part.Matches piece ∧ Matches parts rest

theorem anyThen_iff (c : CharClass) (rest : List Char → Bool) (s : List Char) :
    anyThen c rest s = true
      ↔ ∃ front back, s = front ++ back ∧ (∀ x ∈ front, c.has x = true) ∧ rest back = true := by
  induction s with
  | nil =>
      constructor
      · exact fun h => ⟨[], [], rfl, List.forall_mem_nil _, h⟩
      · rintro ⟨front, back, hsplit, -, hrest⟩
        obtain ⟨rfl, rfl⟩ := List.append_eq_nil_iff.mp hsplit.symm
        exact hrest
  | cons x xs ih =>
      rw [anyThen, Bool.or_eq_true, Bool.and_eq_true, ih]
      constructor
      · rintro (hrest | ⟨hx, front, back, rfl, hfront, hrest⟩)
        · exact ⟨[], x :: xs, rfl, List.forall_mem_nil _, hrest⟩
        · exact ⟨x :: front, back, rfl, List.forall_mem_cons.mpr ⟨hx, hfront⟩, hrest⟩
      · rintro ⟨front, back, hsplit, hfront, hrest⟩
        cases front with
        | nil =>
            rw [List.nil_append] at hsplit
            exact .inl (hsplit ▸ hrest)
        | cons y ys =>
            obtain ⟨rfl, rfl⟩ := List.cons.inj hsplit
            rw [List.forall_mem_cons] at hfront
            exact .inr ⟨hfront.1, ys, back, rfl, hfront.2, hrest⟩

/-- A pattern holds of exactly the texts that match it. -/
theorem holds_iff (p : Pattern) (s : List Char) : p.holds s = true ↔ p.Matches s := by
  induction p generalizing s with
  | nil => rw [holds, List.isEmpty_iff, Matches]
  | cons part parts ih =>
      cases part with
      | one c =>
          cases s with
          | nil => simp [holds, Matches, Part.Matches]
          | cons x xs =>
              rw [holds, Bool.and_eq_true, ih]
              constructor
              · exact fun h => ⟨[x], xs, rfl, ⟨x, rfl, h.1⟩, h.2⟩
              · rintro ⟨_, rest, hsplit, ⟨y, rfl, hy⟩, hrest⟩
                obtain ⟨rfl, rfl⟩ := List.cons.inj hsplit
                exact ⟨hy, hrest⟩
      | any c =>
          rw [holds, anyThen_iff]
          simp only [ih]
          rfl
      | some c =>
          cases s with
          | nil => simp [holds, Matches, Part.Matches]
          | cons x xs =>
              rw [holds, Bool.and_eq_true, anyThen_iff]
              simp only [ih]
              constructor
              · rintro ⟨hx, front, back, rfl, hfront, hback⟩
                exact ⟨x :: front, back, rfl,
                  ⟨List.cons_ne_nil _ _, List.forall_mem_cons.mpr ⟨hx, hfront⟩⟩, hback⟩
              · rintro ⟨piece, rest, hsplit, ⟨hne, hpiece⟩, hrest⟩
                obtain ⟨y, front, rfl⟩ := List.exists_cons_of_ne_nil hne
                obtain ⟨rfl, rfl⟩ := List.cons.inj hsplit
                rw [List.forall_mem_cons] at hpiece
                exact ⟨hpiece.1, front, rest, rfl, hpiece.2, hrest⟩

end Pattern

end TelemetryTypes.Schema
