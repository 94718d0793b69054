import TelemetryTypes.Declaration.Interface
import TelemetryTypes.Proofs.Resolution.Names

/-!
# Resolution as a list of demands

Every step of a run makes demands: a name, what needs it, and whether a metric asks. A step is known
from its demands and from the value it gives when none of them is at fault, and this is what
`Performs` says: run after some names, it settles the demands in order, stops at the first fault and
leaves the registry of the names settled till then. Steps are put together by `performs_bind` and
`performs_mapM`; `performs_resolveName` is the one that looks at the registry.
-/

namespace TelemetryTypes

open MetadataType (first? firstD isEnumerated resolveName)

/-- A name that has to be resolved, for the base type or for a metric. -/
structure Demand where
  name : String
  owner : String
  byMetric : Bool
  deriving DecidableEq

/-- What keeps the first type of a name from resolving, after some names were resolved. -/
def unresolved? (types : List MetadataType) (names : List String) (name owner : String) :
    Option ResolutionError :=
  match first? types name with
  | none => some (.unknownMetadataType owner name)
  | some t =>
    match t.allowedValues with
    | some _ => clash? types names name
    | none =>
      match Kind.declared? t.kind with
      | some _ => none
      | none => some (.unknownKind t.name (t.kind.getD "") owner)

namespace Demand

/-- The fault of a demand, after some names were resolved. -/
def fault? (types : List MetadataType) (names : List String) (q : Demand) :
    Option ResolutionError :=
  if q.byMetric && ClientField.isReserved q.name then some (.reservedField q.owner q.name)
  else unresolved? types names q.name q.owner

/-- Settles demands in order. Gives the first fault and the names that are resolved before it. -/
def settle (types : List MetadataType) : List String → List Demand →
    Option ResolutionError × List String
  | names, [] => (none, names)
  | names, q :: rest =>
    match q.fault? types names with
    | some e => (some e, names)
    | none => settle types (names ++ [q.name]) rest

theorem settle_append (types : List MetadataType) (names : List String) (front back : List Demand) :
    settle types names (front ++ back)
      = match settle types names front with
        | (some e, after) => (some e, after)
        | (none, after) => settle types after back := by
  induction front generalizing names with
  | nil => rfl
  | cons q rest ih =>
      simp only [List.cons_append, settle]
      cases q.fault? types names with
      | some e => rfl
      | none => exact ih (names ++ [q.name])

/-- Without a fault all names are resolved. -/
theorem names_of_settle {types : List MetadataType} {names after : List String}
    {demands : List Demand} (hsettle : settle types names demands = (none, after)) :
    after = names ++ demands.map name := by
  induction demands generalizing names with
  | nil =>
      cases hsettle
      simp
  | cons q rest ih =>
      simp only [settle] at hsettle
      cases hfault : q.fault? types names with
      | some e => simp [hfault] at hsettle
      | none =>
          simp only [hfault] at hsettle
          rw [ih hsettle, List.map_cons, List.append_assoc, List.singleton_append]

end Demand

open Resolving (answer)

/-! ### Steps -/

theorem answer_bind {α β : Type} (step : Resolving α) (next : α → Resolving β) (r : Registry) :
    answer (step >>= next) r
      = match answer step r with
        | (.ok a, r') => answer (next a) r'
        | (.error e, r') => (.error e, r') := by
  change ExceptT.bindCont next (step r).1 (step r).2 = _
  unfold answer
  rcases step r with ⟨e | a, r'⟩ <;> rfl

theorem answer_lift {α : Type} (outcome : Except ResolutionError α) (r : Registry) :
    answer (ExceptT.mk (pure outcome)) r = (outcome, r) := rfl

theorem answer_pure {α : Type} (a : α) (r : Registry) : answer (pure a) r = (.ok a, r) := rfl

theorem answer_throw {α : Type} (e : ResolutionError) (r : Registry) :
    answer (throw e : Resolving α) r = (.error e, r) := rfl

theorem discard_eq_bind {α : Type} (step : Resolving α) :
    discard step = step >>= fun _ => pure ⟨⟩ := by
  rw [discard, map_const, Function.comp, map_eq_pure_bind]

/-- A step makes the demands given, and gives the value when none of them is at fault. -/
def Performs {α : Type} (types : List MetadataType) (step : Resolving α) (demands : List Demand)
    (value : α) : Prop :=
  ∀ names, answer step (.ofNames types names)
    = match Demand.settle types names demands with
      | (none, after) => (.ok value, .ofNames types after)
      | (some e, after) => (.error e, .ofNames types after)

variable {types : List MetadataType} {α β : Type}

theorem performs_pure (value : α) : Performs types (pure value) [] value := fun _ => rfl

theorem performs_bind {step : Resolving α} {next : α → Resolving β} {front back : List Demand}
    {a : α} {b : β} (hstep : Performs types step front a) (hnext : Performs types (next a) back b) :
    Performs types (step >>= next) (front ++ back) b := by
  intro names
  rw [answer_bind, hstep names, Demand.settle_append]
  rcases Demand.settle types names front with ⟨_ | e, after⟩
  · exact hnext after
  · rfl

theorem performs_map {step : Resolving α} {demands : List Demand} {a : α}
    (hstep : Performs types step demands a) (g : α → β) :
    Performs types (step >>= fun x => pure (g x)) demands (g a) := by
  rw [← List.append_nil demands]
  exact performs_bind hstep (performs_pure (g a))

theorem performs_mapM {f : α → Resolving β} {demands : α → List Demand} {value : α → β}
    (hf : ∀ x, Performs types (f x) (demands x) (value x)) (items : List α) :
    Performs types (items.mapM f) (items.flatMap demands) (items.map value) := by
  induction items with
  | nil => exact performs_pure []
  | cons item rest ih =>
      rw [List.mapM_cons, List.flatMap_cons, List.map_cons,
        ← List.append_nil (demands item ++ rest.flatMap demands), List.append_assoc]
      exact performs_bind (hf item) (performs_bind ih (performs_pure _))

/-! ### Resolving a name -/

theorem lookup_eq (name owner : String) :
    MetadataType.lookup types name owner
      = match first? types name with
        | some t => .ok t
        | none => .error (.unknownMetadataType owner name) := rfl

/-- An enumerated type resolves to its union, unless another name holds it. -/
theorem answer_resolve_enumerated {name : String} {t : MetadataType} {values : List String}
    (hfirst : first? types name = some t) (hvalues : t.allowedValues = some values)
    (names : List String) (owner : String) :
    answer (t.resolve owner) (.ofNames types names)
      = match clash? types names name with
        | none => (.ok t.target, .ofNames types (names ++ [name]))
        | some e => (.error e, .ofNames types names) := by
  have hname := MetadataType.name_of_first? hfirst
  have htarget : t.target = .named (Text.pascalCase name) := by
    simp [MetadataType.target, MetadataType.target?, hvalues, hname]
  simp only [MetadataType.resolve, hvalues, MetadataType.unionName, hname, discard_eq_bind,
    bind_assoc, pure_bind, answer_bind, answer_pure, htarget, register_ofNames hfirst hvalues]
  cases clash? types names name <;> rfl

/-- A primitive type resolves to the type of its kind, if that exists, and registers nothing. -/
theorem answer_resolve_primitive {t : MetadataType} (hvalues : t.allowedValues = none)
    (r : Registry) (owner : String) :
    answer (t.resolve owner) r
      = match Kind.declared? t.kind with
        | some _ => (.ok t.target, r)
        | none => (.error (.unknownKind t.name (t.kind.getD "") owner), r) := by
  simp only [MetadataType.resolve, hvalues, MetadataType.target, MetadataType.target?]
  cases Kind.declared? t.kind <;> rfl

theorem answer_resolveName (names : List String) (name owner : String) :
    answer (resolveName types name owner) (.ofNames types names)
      = match unresolved? types names name owner with
        | none => (.ok (firstD types name, (firstD types name).target),
            .ofNames types (names ++ [name]))
        | some e => (.error e, .ofNames types names) := by
  simp only [resolveName, answer_bind, answer_lift, lookup_eq, unresolved?, firstD]
  cases hfirst : first? types name with
  | none => rfl
  | some t =>
      cases hvalues : t.allowedValues with
      | some values =>
          simp only [answer_resolve_enumerated hfirst hvalues, hvalues]
          cases clash? types names name <;> rfl
      | none =>
          have hnot : isEnumerated types name = false := by
            simp [MetadataType.isEnumerated_of_first? hfirst, hvalues]
          simp only [answer_resolve_primitive hvalues, hvalues, ofNames_concat_of_not hnot]
          cases Kind.declared? t.kind <;> rfl

theorem performs_resolveName (name owner : String) :
    Performs types (resolveName types name owner) [⟨name, owner, false⟩]
      (firstD types name, (firstD types name).target) := by
  intro names
  rw [answer_resolveName]
  simp only [Demand.settle, Demand.fault?, Bool.false_and, Bool.false_eq_true, ite_false]
  cases unresolved? types names name owner <;> rfl

/-! ### What keeps a name from resolving -/

theorem isSome_declared?_iff (kind : Option String) :
    (Kind.declared? kind).isSome = true
      ↔ kind ∈ [none, some "string", some "int", some "double", some "boolean"] := by
  cases kind with
  | none => simp [Kind.declared?]
  | some word =>
      rw [Kind.declared?, Kind.toOption_parse, Kind.ofWord?, List.find?_isSome]
      simp [Kind.all, Kind.word, @eq_comm _ word]

theorem declared?_eq_none_iff (kind : Option String) :
    Kind.declared? kind = none
      ↔ ∃ word, kind = some word ∧ word ∉ ["string", "int", "double", "boolean"] := by
  rw [← Option.not_isSome_iff_eq_none, isSome_declared?_iff]
  cases kind <;> simp

section

variable {names : List String} {name owner : String}

theorem unresolved?_of_undeclared (hnone : first? types name = none) :
    unresolved? types names name owner = some (.unknownMetadataType owner name) := by
  rw [unresolved?, hnone]

theorem unresolved?_of_isEnumerated (henum : isEnumerated types name = true) :
    unresolved? types names name owner = clash? types names name := by
  obtain ⟨t, values, hfirst, hvalues⟩ := MetadataType.exists_of_isEnumerated henum
  simp only [unresolved?, hfirst, hvalues]

theorem unresolved?_of_unknownKind {t : MetadataType} {word : String}
    (hfirst : first? types name = some t) (hvalues : t.allowedValues = none)
    (hkind : t.kind = some word) (hunknown : word ∉ ["string", "int", "double", "boolean"]) :
    unresolved? types names name owner = some (.unknownKind name word owner) := by
  have hnone := (declared?_eq_none_iff (some word)).mpr ⟨word, rfl, hunknown⟩
  simp only [unresolved?, hfirst, hvalues, hkind, hnone, MetadataType.name_of_first? hfirst,
    Option.getD_some]

/-- Only these three things keep a name from resolving. -/
theorem cases_of_unresolved? {e : ResolutionError}
    (hfault : unresolved? types names name owner = some e) :
    (first? types name = none ∧ e = .unknownMetadataType owner name)
      ∨ (∃ t word, first? types name = some t ∧ t.allowedValues = none ∧ t.kind = some word
          ∧ word ∉ ["string", "int", "double", "boolean"] ∧ e = .unknownKind name word owner)
      ∨ (isEnumerated types name = true ∧ clash? types names name = some e) := by
  cases hfirst : first? types name with
  | none =>
      rw [unresolved?_of_undeclared hfirst, Option.some_inj] at hfault
      exact .inl ⟨rfl, hfault.symm⟩
  | some t =>
      have hname := MetadataType.name_of_first? hfirst
      have henum := MetadataType.isEnumerated_of_first? hfirst
      cases hvalues : t.allowedValues with
      | some values =>
          rw [hvalues] at henum
          rw [unresolved?_of_isEnumerated henum] at hfault
          exact .inr (.inr ⟨henum, hfault⟩)
      | none =>
          cases hdeclared : Kind.declared? t.kind with
          | some kind => simp [unresolved?, hfirst, hvalues, hdeclared] at hfault
          | none =>
              obtain ⟨word, hkind, hunknown⟩ := (declared?_eq_none_iff t.kind).mp hdeclared
              rw [unresolved?_of_unknownKind hfirst hvalues hkind hunknown,
                Option.some_inj] at hfault
              exact .inr (.inl ⟨t, word, rfl, hvalues, hkind, hunknown, hfault.symm⟩)

end

/-! ### When nothing is at fault -/

/-- A name resolves when it is declared, by a type that lists values or has a kind that exists. -/
def Resolves (types : List MetadataType) (name : String) : Prop :=
  ∃ t, first? types name = some t ∧
    (t.allowedValues.isSome = true ∨ (Kind.declared? t.kind).isSome = true)

theorem Resolves.exists_target {name : String} (h : Resolves types name) :
    ∃ t, first? types name = some t ∧ t.target? = some (firstD types name).target := by
  obtain ⟨t, hfirst, htyped⟩ := h
  refine ⟨t, hfirst, ?_⟩
  rw [MetadataType.firstD_of_first? hfirst, MetadataType.target, MetadataType.target?]
  cases hvalues : t.allowedValues with
  | some values => rfl
  | none =>
      have hkind : (Kind.declared? t.kind).isSome = true := by simpa [hvalues] using htyped
      obtain ⟨kind, hkind⟩ := Option.isSome_iff_exists.mp hkind
      rw [hkind]
      rfl

theorem unresolved?_eq_none_iff {names : List String} (hapart : Apart types names)
    (name owner : String) :
    unresolved? types names name owner = none
      ↔ Resolves types name ∧ Apart types (names ++ [name]) := by
  rw [apart_concat_iff hapart]
  unfold unresolved? Resolves
  cases hfirst : first? types name with
  | none => simp
  | some t =>
      rw [MetadataType.isEnumerated_of_first? hfirst]
      cases hvalues : t.allowedValues with
      | some values => simp [hvalues, clash?_eq_none_iff hapart]
      | none => cases hkind : Kind.declared? t.kind <;> simp [hvalues, hkind]

namespace Demand

/-- Metrics leave the client's fields alone. -/
def Lawful (q : Demand) : Prop := q.byMetric = true → ClientField.isReserved q.name = false

theorem fault?_eq_none_iff {names : List String} (hapart : Apart types names) (q : Demand) :
    q.fault? types names = none
      ↔ q.Lawful ∧ Resolves types q.name ∧ Apart types (names ++ [q.name]) := by
  rw [← unresolved?_eq_none_iff hapart q.name q.owner]
  unfold fault? Lawful
  cases q.byMetric <;> cases ClientField.isReserved q.name <;> simp

/-- The order of demands, and what is settled before them, decide which fault comes first. Whether
there is one they do not decide. -/
theorem settle_eq_none_iff {names : List String} (hapart : Apart types names)
    (demands : List Demand) :
    (settle types names demands).1 = none
      ↔ (∀ q ∈ demands, q.Lawful ∧ Resolves types q.name)
        ∧ Apart types (names ++ demands.map name) := by
  induction demands generalizing names with
  | nil => simp [settle, hapart]
  | cons q rest ih =>
      have hfault := fault?_eq_none_iff hapart q
      simp only [settle, List.map_cons, List.forall_mem_cons]
      cases hq : q.fault? types names with
      | some e =>
          refine iff_of_false (by simp) fun h => ?_
          have hfirst : Apart types (names ++ [q.name]) := h.2.mono (by simp)
          simp [hq, h.1.1, hfirst] at hfault
      | none =>
          obtain ⟨hlawful, hresolves, hfirst⟩ := hfault.mp hq
          simp only [ih hfirst, hlawful, hresolves, true_and, List.append_assoc,
            List.singleton_append]

end Demand

end TelemetryTypes
