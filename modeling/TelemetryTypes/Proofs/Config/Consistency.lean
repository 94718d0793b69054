import Mathlib.Data.List.Nodup
import TelemetryTypes.Config.Basic

/-!
# The check of settings

`Config.check` stops at the first fault; `check_eq_ok_iff` says that it passes exactly the settings
that `Config.Valid` describes without any order. Each of its parts has an equivalence of its own.
-/

namespace TelemetryTypes.Config

theorem checkTypeName_eq_ok_iff (key value : String) :
    checkTypeName key value = .ok () ↔ Text.isIdentifier value = true := by
  unfold checkTypeName
  cases Text.isIdentifier value <;> simp

theorem checkCommon_eq_ok_iff (seen names : List String) :
    checkCommon seen names = .ok ()
      ↔ names.Nodup ∧ (∀ name ∈ names, name ∉ seen)
        ∧ ∀ name ∈ names, ClientField.isReserved name = false := by
  induction names generalizing seen with
  | nil => simp [checkCommon]
  | cons name rest ih =>
      by_cases hseen : name ∈ seen
      · simp [checkCommon, hseen]
      · cases hreserved : ClientField.isReserved name with
        | true => simp [checkCommon, hseen, hreserved]
        | false =>
            simp only [checkCommon, hseen, hreserved, Bool.false_eq_true, ite_false, ih,
              List.nodup_cons, List.forall_mem_cons, not_false_eq_true, true_and]
            constructor
            · rintro ⟨hnodup, hnot, hfree⟩
              refine ⟨⟨fun hmem => hnot name hmem List.mem_cons_self, hnodup⟩, ?_, hfree⟩
              exact fun other hother hin => hnot other hother (List.mem_cons_of_mem name hin)
            · rintro ⟨⟨hname, hnodup⟩, hnot, hfree⟩
              refine ⟨hnodup, fun other hother hin => ?_, hfree⟩
              rcases List.mem_cons.mp hin with rfl | hin
              · exact hname hother
              · exact hnot other hother hin

theorem checkOverridable_eq_ok_iff (common names : List String) :
    checkOverridable common names = .ok () ↔ names ⊆ common := by
  induction names with
  | nil => simp [checkOverridable]
  | cons name rest ih =>
      by_cases hname : name ∈ common <;> simp [checkOverridable, hname, ih]

theorem bind_eq_ok_iff {ε α : Type} {first : Except ε Unit} {rest : Unit → Except ε α} {a : α} :
    first >>= rest = .ok a ↔ first = .ok () ∧ rest () = .ok a := by
  cases first with
  | error e => simp [bind, Except.bind]
  | ok u => simp [bind, Except.bind]

/-- The check passes exactly the consistent settings. -/
theorem check_eq_ok_iff (c : Config) : c.check = .ok () ↔ c.Valid := by
  unfold check
  rw [bind_eq_ok_iff, bind_eq_ok_iff, bind_eq_ok_iff, checkTypeName_eq_ok_iff,
    checkTypeName_eq_ok_iff, checkCommon_eq_ok_iff, checkOverridable_eq_ok_iff]
  constructor
  · rintro ⟨hbase, hclient, ⟨hnodup, _, hfree⟩, hsub⟩
    exact ⟨hbase, hclient, hnodup, hfree, hsub⟩
  · intro h
    exact ⟨h.baseTypeName, h.clientClassName,
      ⟨h.common_nodup, fun _ _ => List.not_mem_nil, h.common_free⟩, h.overridable_subset⟩

end TelemetryTypes.Config
