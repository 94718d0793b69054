import TelemetryTypes.Proofs.Resolution.Demand

/-!
# What a success says

Whether a step succeeds depends on the unions that are registered when it is run. What it gives does
not: `Ensures` speaks of every registry there is, those included that no run leaves behind, so what
it says of a step holds after any history of earlier steps, failed ones among them.
-/

namespace TelemetryTypes

open MetadataType (first? firstD resolveName)
open Resolving (answer)

/-- Whenever a step succeeds, on whatever registry, what it gives has the property. -/
def Ensures {α : Type} (step : Resolving α) (P : α → Prop) : Prop :=
  ∀ r a r', answer step r = (.ok a, r') → P a

namespace Ensures

variable {α β : Type} {step : Resolving α}

theorem pure {a : α} {P : α → Prop} (h : P a) : Ensures (pure a) P := by
  intro r b r' hanswer
  rw [answer_pure] at hanswer
  cases hanswer
  exact h

theorem throw (e : ResolutionError) (P : α → Prop) : Ensures (throw e) P := by
  intro r a r' hanswer
  cases hanswer

theorem bind {next : α → Resolving β} {P : α → Prop} {Q : β → Prop} (hstep : Ensures step P)
    (hnext : ∀ a, P a → Ensures (next a) Q) : Ensures (step >>= next) Q := by
  intro r b r' hanswer
  rw [answer_bind] at hanswer
  cases hfirst : answer step r with
  | mk outcome between =>
      rw [hfirst] at hanswer
      cases outcome with
      | error e => cases hanswer
      | ok a => exact hnext a (hstep r a between hfirst) between b r' hanswer

/-- Items that give values of their own, under conditions of their own, give the list of them. -/
theorem mapM {f : α → Resolving β} {value : α → β} {P : α → Prop}
    (hf : ∀ x, Ensures (f x) fun b => b = value x ∧ P x) (items : List α) :
    Ensures (items.mapM f) fun bs => bs = items.map value ∧ ∀ x ∈ items, P x := by
  induction items with
  | nil => exact pure ⟨rfl, List.forall_mem_nil _⟩
  | cons item rest ih =>
      rw [List.mapM_cons]
      refine bind (hf item) fun b hb => bind ih fun bs hbs => pure ⟨?_, ?_⟩
      · rw [hb.1, hbs.1, List.map_cons]
      · exact List.forall_mem_cons.mpr ⟨hb.2, hbs.2⟩

end Ensures

variable {types : List MetadataType}

/-- A type that resolves has a target, and gives it. -/
theorem ensures_resolve (t : MetadataType) (owner : String) :
    Ensures (t.resolve owner) fun type => type = t.target
      ∧ (t.allowedValues.isSome = true ∨ (Kind.declared? t.kind).isSome = true) := by
  unfold MetadataType.resolve MetadataType.target MetadataType.target?
  cases t.allowedValues with
  | some values =>
      have hregister : Ensures (discard (Resolving.register t.unionName t.name values))
          fun _ => True := fun _ _ _ _ => trivial
      exact hregister.bind fun _ _ => .pure ⟨rfl, .inl rfl⟩
  | none =>
      cases Kind.declared? t.kind with
      | some kind => exact .pure ⟨rfl, .inr rfl⟩
      | none => exact .throw _ _

theorem ensures_lookup (name owner : String) :
    Ensures (ExceptT.mk (pure (MetadataType.lookup types name owner)))
      fun t => first? types name = some t := by
  intro r t r' hanswer
  rw [answer_lift, lookup_eq] at hanswer
  cases hfirst : first? types name with
  | none =>
      rw [hfirst] at hanswer
      cases hanswer
  | some first =>
      rw [hfirst] at hanswer
      cases hanswer
      rfl

/-- A name that resolves gives its first type and the target of that. -/
theorem ensures_resolveName (name owner : String) :
    Ensures (resolveName types name owner) fun resolved =>
      resolved = (firstD types name, (firstD types name).target) ∧ Resolves types name := by
  refine (ensures_lookup name owner).bind fun t hfirst =>
    (ensures_resolve t owner).bind fun type htype => .pure ⟨?_, t, hfirst, htype.2⟩
  rw [htype.1, MetadataType.firstD_of_first? hfirst]

end TelemetryTypes
