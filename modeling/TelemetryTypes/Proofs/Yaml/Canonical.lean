import TelemetryTypes.Proofs.Json.Canonical
import TelemetryTypes.Yaml.Json

/-!
# Values read from YAML text

A node that is read as JSON gives a value whose objects have their keys in strict order, as JSON
text does. A reader of nodes is followed through its steps by `Yields`, in every document and after
any number of aliases.
-/

namespace TelemetryTypes.Yaml

namespace Reading

/-- Whether a reader reads only values with a property. -/
def Yields {α : Type} (P : α → Prop) (reading : Reading α) : Prop :=
  ∀ d followed, Gives (fun outcome => P outcome.1) ((ReaderT.run reading d).run followed)

namespace Yields

variable {α β : Type} {P : α → Prop} {Q : β → Prop}

theorem pure {a : α} (h : P a) : Yields P (Pure.pure a) :=
  fun _ _ => .ok h

theorem throw {e : ReadError} : Yields P (MonadExcept.throw e) :=
  fun _ _ => .error

theorem bind {reading : Reading α} {next : α → Reading β} (h : Yields P reading)
    (hnext : ∀ a, P a → Yields Q (next a)) : Yields Q (reading >>= next) :=
  fun d followed => (h d followed).bind fun outcome ha => hnext outcome.1 ha d outcome.2

theorem bind_any {reading : Reading α} {next : α → Reading β} (hnext : ∀ a, Yields Q (next a)) :
    Yields Q (reading >>= next) :=
  fun d _ => .bind_any fun outcome => hnext outcome.1 d outcome.2

theorem mapM {f : α → Reading β} {l : List α} (h : ∀ a ∈ l, Yields Q (f a)) :
    Yields (fun values => ∀ b ∈ values, Q b) (l.mapM f) := by
  induction l with
  | nil => exact .pure (List.forall_mem_nil _)
  | cons a rest ih =>
      rw [List.forall_mem_cons] at h
      rw [List.mapM_cons]
      refine h.1.bind fun b hb => (ih h.2).bind fun bs hbs => ?_
      exact .pure (List.forall_mem_cons.mpr ⟨hb, hbs⟩)

end Yields

theorem yields_entries {item : Path → Node → Reading Json}
    (hitem : ∀ path node, Yields Json.Canonical (item path node)) (path : Path) (wanted : String)
    (pairs : List (Node × Node)) :
    Yields (fun found => ∀ entry ∈ found, entry.2.Canonical) (entries item path wanted pairs) := by
  induction pairs generalizing wanted with
  | nil => exact .pure (List.forall_mem_nil _)
  | cons pair rest ih =>
      refine .bind_any fun _ => .bind_any fun name => ?_
      refine (hitem _ _).bind fun head hhead => (ih _).bind fun tail htail => ?_
      exact .pure (List.forall_mem_cons.mpr ⟨hhead, htail⟩)

theorem canonical_of_toJson? {v : Value} {value : Json} (h : v.toJson? = some value) :
    value.Canonical := by
  cases v with
  | integer n =>
      rw [Value.toJson?] at h
      split at h
      · cases h
        trivial
      · cases h
  | _ =>
      cases h
      trivial

theorem yields_json (depth : Nat) (path : Path) (node : Node) :
    Yields Json.Canonical (json depth path node) := by
  have hinner : ∀ inner, depth = inner + 1 → ∀ path node,
      Yields Json.Canonical (json inner path node) := by
    rintro inner rfl path node
    exact yields_json inner path node
  unfold json
  refine .bind_any fun content => ?_
  cases content with
  | scalar mark tag style s =>
      refine .bind_any fun _ => ?_
      split
      next => exact .throw
      next v _ =>
        split
        next heq => exact .pure (canonical_of_toJson? heq)
        next => exact .throw
  | sequence mark tag items =>
      refine .bind_any fun _ => ?_
      split
      next => exact .throw
      next =>
        refine (Yields.mapM fun _ _ => hinner _ rfl _ _).bind fun values hvalues => ?_
        exact .pure (Json.canonical_array_iff.mpr hvalues)
  | mapping mark tag pairs =>
      refine .bind_any fun _ => ?_
      split
      next => exact .throw
      next =>
        refine (yields_entries (hinner _ rfl) _ _ _).bind fun found hfound => ?_
        exact .pure (Json.canonical_ofEntries hfound)

end Reading

theorem gives_parse (text : String) : Gives Json.Canonical (parse text) := by
  unfold parse readText
  split
  · exact .error
  · split
    · exact .ok trivial
    · exact (Reading.yields_json _ _ _ _ _).bind fun _ hvalue => .ok hvalue

end TelemetryTypes.Yaml
