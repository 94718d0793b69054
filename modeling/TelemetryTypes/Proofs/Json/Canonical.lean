import TelemetryTypes.Json.Parser
import TelemetryTypes.Proofs.Json.Entries

/-!
# Values read from JSON text

Whatever text a value is read from, every object in it has its keys in strict order: numerals, words
and strings hold no object, and a bracket puts together what the readers of its items give. A reader
is followed through its steps by `Gives`, which says nothing of a text that is malformed.
-/

namespace TelemetryTypes

/-- Whether the value of an outcome, if there is one, has a property. -/
def Gives {ε α : Type} (P : α → Prop) (outcome : Except ε α) : Prop :=
  ∀ a, outcome = .ok a → P a

namespace Gives

variable {ε α β : Type} {P : α → Prop} {Q : β → Prop}

theorem ok {a : α} (h : P a) : Gives P (.ok a : Except ε α) := by
  intro b heq
  exact Except.ok.inj heq ▸ h

theorem error {e : ε} : Gives P (.error e : Except ε α) := by
  intro b heq
  cases heq

theorem bind {outcome : Except ε α} {next : α → Except ε β} (h : Gives P outcome)
    (hnext : ∀ a, P a → Gives Q (next a)) : Gives Q (outcome >>= next) := by
  cases outcome with
  | error e => exact error
  | ok a => exact hnext a (h a rfl)

/-- A value of which nothing needs to be known. -/
theorem bind_any {outcome : Except ε α} {next : α → Except ε β} (hnext : ∀ a, Gives Q (next a)) :
    Gives Q (outcome >>= next) :=
  bind (P := fun _ => True) (fun _ _ => trivial) fun a _ => hnext a

end Gives

namespace Json

/-- Whether a reader's value is canonical, if it reads one. -/
abbrev GivesCanonical (attempt : Attempt (Json × List Char)) : Prop :=
  Gives (fun reading => reading.1.Canonical) attempt

theorem gives_word (value : Json) (hvalue : value.Canonical) (letters s : List Char) :
    GivesCanonical (word value letters s) := by
  induction letters generalizing s with
  | nil => exact .ok hvalue
  | cons letter rest ih =>
      cases s with
      | nil => exact .error
      | cons c tail =>
          rw [word]
          split
          · exact ih tail
          · exact .error

theorem gives_scaled (negative : Bool) (significand : Nat) (exponent : Int) (s : List Char) :
    GivesCanonical (scaled negative significand exponent s) := by
  rw [scaled]
  split
  · exact .ok trivial
  · exact .error

theorem gives_exponentPart (negative : Bool) (significand : Nat) (scale : Int) (s : List Char) :
    GivesCanonical (exponentPart negative significand scale s) := by
  unfold exponentPart
  split
  split
  · exact .error
  · split
    · exact .error
    · dsimp only
      split
      · split
        · exact gives_scaled _ _ _ _
        · split
          · exact .error
          · exact .ok trivial
      · exact gives_scaled _ _ _ _

theorem gives_exponent (negative : Bool) (significand : Nat) (scale : Int) (s : List Char) :
    GivesCanonical (exponent? negative significand scale s) := by
  unfold exponent?
  split
  · split
    · exact gives_exponentPart _ _ _ _
    · exact gives_scaled _ _ _ _
  · exact gives_scaled _ _ _ _

theorem gives_fractionPart (negative : Bool) (significand : Nat) (scale : Int) (s : List Char) :
    GivesCanonical (fractionPart negative significand scale s) := by
  unfold fractionPart
  split
  · exact .error
  · split
    · exact .error
    · exact gives_exponent _ _ _ _

theorem gives_numeral (negative : Bool) (s : List Char) :
    GivesCanonical (numeral negative s) := by
  unfold numeral
  split
  · exact .error
  · split
    · exact .error
    · split
      · exact .error
      · dsimp only
        split
        · exact gives_fractionPart _ _ _ _
        · exact gives_exponentPart _ _ _ _
        · exact gives_exponentPart _ _ _ _
        · split
          · exact .ok trivial
          · exact gives_scaled _ _ _ _

section Brackets

variable {item : List Char → Attempt (Json × List Char)} (hitem : ∀ s, GivesCanonical (item s))
include hitem

theorem gives_items {done : List Json} (hdone : ∀ v ∈ done, v.Canonical) (s : List Char) :
    Gives (fun reading => ∀ v ∈ reading.1, v.Canonical) (items item done s) := by
  fun_induction items item done s with
  | case2 done s rest hs => exact .ok fun v hv => hdone v (List.mem_reverse.mp hv)
  | case6 done s rest _ v tail _ _ _ hv ih =>
      exact ih (List.forall_mem_cons.mpr ⟨hitem _ _ hv, hdone⟩)
  | _ => exact .error

theorem gives_arrayBody (s : List Char) : GivesCanonical (arrayBody item s) := by
  unfold arrayBody
  split
  · exact .error
  · exact .ok (canonical_array_iff.mpr (List.forall_mem_nil _))
  · refine (hitem _).bind ?_
    rintro ⟨v, rest⟩ hv
    refine (gives_items hitem (List.forall_mem_singleton.mpr hv) rest).bind fun _ h => ?_
    exact .ok (canonical_array_iff.mpr h)

theorem gives_entry (s : List Char) :
    Gives (fun reading => reading.1.2.Canonical) (entry item s) := by
  unfold entry
  split
  · refine .bind_any ?_
    rintro ⟨key, rest⟩
    dsimp only
    split
    · exact .error
    · exact (hitem _).bind fun _ hv => .ok hv
    · exact .error
  · exact .error

theorem gives_entries {done : List (String × Json)} (hdone : ∀ e ∈ done, e.2.Canonical)
    (s : List Char) :
    Gives (fun reading => ∀ e ∈ reading.1, e.2.Canonical) (entries item done s) := by
  fun_induction entries item done s with
  | case2 done s rest hs => exact .ok fun e he => hdone e (List.mem_reverse.mp he)
  | case6 done s rest _ e tail _ _ _ he ih =>
      exact ih (List.forall_mem_cons.mpr ⟨gives_entry hitem _ _ he, hdone⟩)
  | _ => exact .error

theorem gives_objectBody (s : List Char) : GivesCanonical (objectBody item s) := by
  unfold objectBody
  split
  · exact .error
  · exact .ok (canonical_object_iff.mpr ⟨.nil, List.forall_mem_nil _⟩)
  · refine (gives_entry hitem _).bind ?_
    rintro ⟨head, rest⟩ hhead
    refine (gives_entries hitem (List.forall_mem_singleton.mpr hhead) rest).bind fun _ h => ?_
    exact .ok (canonical_ofEntries h)

end Brackets

theorem gives_value (depth : Nat) (s : List Char) : GivesCanonical (value depth s) := by
  have hinner : ∀ inner, depth = inner + 1 → ∀ s, GivesCanonical (value inner s) := by
    rintro inner rfl s
    exact gives_value inner s
  unfold value
  dsimp only
  split
  · exact .error
  · exact gives_word .null trivial _ _
  · exact gives_word (.bool true) trivial _ _
  · exact gives_word (.bool false) trivial _ _
  · exact gives_numeral _ _
  · exact .bind_any fun _ => .ok trivial
  · split
    · exact .error
    · exact gives_arrayBody (hinner _ rfl) _
  · split
    · exact .error
    · exact gives_objectBody (hinner _ rfl) _
  · split
    · exact gives_numeral _ _
    · exact .error

theorem gives_document (s : List Char) : Gives Canonical (document s) := by
  refine (gives_value maxNesting s).bind ?_
  rintro ⟨v, rest⟩ hv
  dsimp only
  split
  · exact .ok hv
  · exact .error

theorem gives_parse (text : String) : Gives Canonical (parse text) := by
  unfold parse
  dsimp only
  split
  next heq => exact .ok (gives_document _ _ heq)
  next => exact .error

end Json

end TelemetryTypes
