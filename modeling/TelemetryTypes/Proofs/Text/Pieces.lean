import Mathlib.Data.List.Basic
import TelemetryTypes.Text.Basic

/-!
# Texts in pieces

Texts are taken apart at line feeds and put together with separators. Taken apart, no piece has a
line feed in it; put together, the first piece stands alone and every other one has a separator
before it, which is how they are read.
-/

namespace TelemetryTypes.Text

/-! ### Lines -/

theorem pieces_lineEnd (front back : List Char) :
    pieces (front ++ '\n' :: back) = pieces front ++ pieces back := by
  induction front with
  | nil => simp [pieces]
  | cons c rest ih =>
      rw [List.cons_append, pieces, pieces, ih]
      split_ifs with hc
      · rfl
      · cases hpieces : pieces rest with
        | nil => exact absurd hpieces (pieces_ne_nil rest)
        | cons piece others => rfl

theorem pieces_of_not_mem {chars : List Char} (h : '\n' ∉ chars) : pieces chars = [chars] := by
  induction chars with
  | nil => rfl
  | cons c rest ih =>
      rw [List.mem_cons, not_or] at h
      rw [pieces, if_neg (Ne.symm h.1), ih h.2]

theorem not_mem_of_mem_pieces {chars piece : List Char} (h : piece ∈ pieces chars) :
    '\n' ∉ piece := by
  induction chars generalizing piece with
  | nil =>
      rw [List.mem_singleton.mp h]
      exact List.not_mem_nil
  | cons c rest ih =>
      rw [pieces] at h
      split_ifs at h with hc
      · rcases List.mem_cons.mp h with rfl | hrest
        · exact List.not_mem_nil
        · exact ih hrest
      · cases hpieces : pieces rest with
        | nil => exact absurd hpieces (pieces_ne_nil rest)
        | cons first others =>
            rw [hpieces] at h ih
            rcases List.mem_cons.mp h with rfl | hothers
            · rw [List.mem_cons, not_or]
              exact ⟨Ne.symm hc, ih List.mem_cons_self⟩
            · exact ih (List.mem_cons_of_mem first hothers)

theorem pieces_eq_splitOn (chars : List Char) : pieces chars = chars.splitOn '\n' := by
  induction chars with
  | nil => rfl
  | cons c rest ih =>
      rw [pieces, List.splitOn_cons_eq_if_modifyHead, ← ih]
      simp only [beq_iff_eq]
      split_ifs with hc
      · rfl
      · cases hpieces : pieces rest with
        | nil => exact absurd hpieces (pieces_ne_nil rest)
        | cons piece others => rfl

/-! ### Separators -/

theorem intercalate_cons {α : Type} (separator first : List α) (others : List (List α)) :
    separator.intercalate (first :: others) = first ++ others.flatMap (separator ++ ·) := by
  induction others generalizing first with
  | nil => simp
  | cons second rest ih => simp [List.intercalate_cons_cons, ih]

theorem toList_intercalate_cons (separator first : String) (others : List String) :
    (separator.intercalate (first :: others)).toList
      = first.toList ++ others.flatMap fun text => separator.toList ++ text.toList := by
  rw [String.toList_intercalate, List.map_cons, intercalate_cons, List.flatMap_map]

end TelemetryTypes.Text
