import TelemetryTypes.Proofs.Definitions.FirstOccurrence
import TelemetryTypes.Resolution

/-!
# The registry of resolved names

Names are resolved one after the other, and what a run registers depends on nothing but the names it
has resolved: `Registry.ofNames` has one registration for every distinct enumerated name, in the
order of first occurrence. `register_ofNames` is the step: the union of a name is registered, or was
registered for the same name, or another name holds it.
-/

namespace TelemetryTypes

namespace MetadataType

/-- The first of some metadata types that has a name. -/
def first? (types : List MetadataType) (name : String) : Option MetadataType :=
  types.find? (·.name == name)

/-- Whether the first type of a name lists its values. -/
def isEnumerated (types : List MetadataType) (name : String) : Bool :=
  ((first? types name).bind allowedValues).isSome

/-- The distinct enumerated names among some, in the order of their first occurrence. -/
def enumeratedAmong (types : List MetadataType) (names : List String) : List String :=
  keepFirst id (names.filter (isEnumerated types))

/-- The first type of a name, or one that declares nothing. -/
def firstD (types : List MetadataType) (name : String) : MetadataType :=
  (first? types name).getD (.bare name)

/-- The type of the fields that carry a metadata type, if its kind exists. -/
def target? (t : MetadataType) : Option TypeExpr :=
  match t.allowedValues with
  | some _ => some (.named (Text.pascalCase t.name))
  | none => (Kind.declared? t.kind).map .ofKind

/-- The type of the fields that carry a metadata type; a string where there is none. -/
def target (t : MetadataType) : TypeExpr := t.target?.getD .string

theorem name_of_first? {types : List MetadataType} {name : String} {t : MetadataType}
    (hfirst : first? types name = some t) : t.name = name := by
  simpa using List.find?_some hfirst

theorem first?_ne_none_iff {types : List MetadataType} {name : String} :
    first? types name ≠ none ↔ name ∈ types.map MetadataType.name := by
  rw [← Option.isSome_iff_ne_none, first?, List.find?_isSome]
  simp

theorem firstD_of_first? {types : List MetadataType} {name : String} {t : MetadataType}
    (hfirst : first? types name = some t) : firstD types name = t := by
  rw [firstD, hfirst, Option.getD_some]

theorem isEnumerated_of_first? {types : List MetadataType} {name : String} {t : MetadataType}
    (hfirst : first? types name = some t) :
    isEnumerated types name = t.allowedValues.isSome := by
  simp [isEnumerated, hfirst]

theorem exists_of_isEnumerated {types : List MetadataType} {name : String}
    (henum : isEnumerated types name = true) :
    ∃ t values, first? types name = some t ∧ t.allowedValues = some values := by
  obtain ⟨values, hbind⟩ := Option.isSome_iff_exists.mp henum
  obtain ⟨t, hfirst, hvalues⟩ := Option.bind_eq_some_iff.mp hbind
  exact ⟨t, values, hfirst, hvalues⟩

/-- Only the values of a type make its target a named one. -/
theorem target_firstD_eq_named_iff {types : List MetadataType} {name union : String} :
    (firstD types name).target = .named union
      ↔ isEnumerated types name = true ∧ union = Text.pascalCase name := by
  cases hfirst : first? types name with
  | none =>
      simp [firstD, isEnumerated, hfirst, bare, target, target?, Kind.declared?, TypeExpr.ofKind]
  | some t =>
      rw [isEnumerated_of_first? hfirst, firstD_of_first? hfirst]
      cases hvalues : t.allowedValues with
      | some values => simp [target, target?, hvalues, name_of_first? hfirst, eq_comm]
      | none =>
          cases hkind : Kind.declared? t.kind with
          | none => simp [target, target?, hvalues, hkind]
          | some kind => cases kind <;> simp [target, target?, hvalues, hkind, TypeExpr.ofKind]

theorem mem_enumeratedAmong {types : List MetadataType} {names : List String} {name : String} :
    name ∈ enumeratedAmong types names ↔ name ∈ names ∧ isEnumerated types name = true := by
  have hkeys := mem_map_keepFirst id (names.filter (isEnumerated types)) name
  simpa [enumeratedAmong, List.mem_filter] using hkeys

theorem enumeratedAmong_concat_of_not {types : List MetadataType} {name : String}
    (hnot : isEnumerated types name = false) (names : List String) :
    enumeratedAmong types (names ++ [name]) = enumeratedAmong types names := by
  simp [enumeratedAmong, hnot]

theorem enumeratedAmong_concat {types : List MetadataType} {name : String}
    (henum : isEnumerated types name = true) (names : List String) :
    enumeratedAmong types (names ++ [name])
      = if name ∈ enumeratedAmong types names then enumeratedAmong types names
        else enumeratedAmong types names ++ [name] := by
  have hmem : name ∈ enumeratedAmong types names ↔ name ∈ names.filter (isEnumerated types) := by
    rw [mem_enumeratedAmong, List.mem_filter]
  simp only [hmem]
  simp only [enumeratedAmong, List.filter_append, List.filter_cons, henum, ite_true,
    List.filter_nil, keepFirst_concat, id_eq, List.map_id_fun]

end MetadataType

open MetadataType (first? firstD isEnumerated enumeratedAmong)

/-! ### The registry of resolved names -/

/-- The registration that the enumerated type of a name leaves. -/
def Registration.ofName (types : List MetadataType) (name : String) : Registration :=
  ⟨⟨Text.pascalCase name, ((first? types name).bind MetadataType.allowedValues).getD []⟩, name⟩

/-- The registry of a run that has resolved some names. -/
def Registry.ofNames (types : List MetadataType) (names : List String) : Registry :=
  ⟨(enumeratedAmong types names).map (.ofName types)⟩

/-- The resolved name whose union has the name that the union of `name` would have. -/
def holder? (types : List MetadataType) (names : List String) (name : String) : Option String :=
  (enumeratedAmong types names).find? (Text.pascalCase · == Text.pascalCase name)

/-- What keeps the union of a name from being registered, after some names were resolved. -/
def clash? (types : List MetadataType) (names : List String) (name : String) :
    Option ResolutionError :=
  match holder? types names name with
  | some other =>
    if other = name then none
    else some (.typeNameCollision (Text.pascalCase name) (Registry.claimant other)
      (Registry.claimant name))
  | none => none

theorem find?_ofNames (types : List MetadataType) (names : List String) (name : String) :
    (Registry.ofNames types names).find? (Text.pascalCase name)
      = (holder? types names name).map (.ofName types) := by
  simp only [Registry.find?, Registry.ofNames, holder?, List.find?_map]
  rfl

theorem holds_of_holder? {types : List MetadataType} {names : List String} {name holder : String}
    (hholder : holder? types names name = some holder) :
    holder ∈ names ∧ isEnumerated types holder = true
      ∧ Text.pascalCase holder = Text.pascalCase name := by
  obtain ⟨hmem, henum⟩ := MetadataType.mem_enumeratedAmong.mp (List.mem_of_find?_eq_some hholder)
  exact ⟨hmem, henum, by simpa using List.find?_some hholder⟩

theorem ofNames_concat_of_not {types : List MetadataType} {name : String}
    (hnot : isEnumerated types name = false) (names : List String) :
    Registry.ofNames types (names ++ [name]) = Registry.ofNames types names := by
  simp only [Registry.ofNames, MetadataType.enumeratedAmong_concat_of_not hnot]

/-- A name that was resolved before leaves the registry as it is. -/
theorem ofNames_concat_of_mem {types : List MetadataType} {names : List String} {name : String}
    (hmem : name ∈ names) :
    Registry.ofNames types (names ++ [name]) = Registry.ofNames types names := by
  cases henum : isEnumerated types name with
  | false => exact ofNames_concat_of_not henum names
  | true =>
      have hheld := MetadataType.mem_enumeratedAmong.mpr ⟨hmem, henum⟩
      simp only [Registry.ofNames, MetadataType.enumeratedAmong_concat henum, if_pos hheld]

theorem register_ofNames {types : List MetadataType} {name : String} {t : MetadataType}
    {values : List String} (hfirst : first? types name = some t)
    (hvalues : t.allowedValues = some values) (names : List String) :
    Resolving.answer (Resolving.register (Text.pascalCase name) name values)
        (.ofNames types names)
      = match clash? types names name with
        | none => (.ok (holder? types names name).isNone, .ofNames types (names ++ [name]))
        | some e => (.error e, .ofNames types names) := by
  have henum : isEnumerated types name = true := by
    simp [MetadataType.isEnumerated_of_first? hfirst, hvalues]
  have hconcat := MetadataType.enumeratedAmong_concat henum names
  simp only [Resolving.answer, Resolving.register, Registry.register, find?_ofNames, clash?]
  cases hholder : holder? types names name with
  | none =>
      -- Nothing holds the union's name, so `name` itself is not registered either.
      have hnew : name ∉ enumeratedAmong types names := by
        intro hmem
        have hfalse := List.find?_eq_none.mp hholder name hmem
        simp at hfalse
      have hentry : Registration.ofName types name = ⟨⟨Text.pascalCase name, values⟩, name⟩ := by
        simp [Registration.ofName, hfirst, hvalues]
      simp [Registry.push, Registry.ofNames, hconcat, hnew, hentry]
  | some other =>
      by_cases hother : other = name
      · have hmem : name ∈ enumeratedAmong types names := hother ▸ List.mem_of_find?_eq_some hholder
        simp [Registration.ofName, hother, Registry.ofNames, hconcat, hmem]
      · simp [Registration.ofName, hother]

/-! ### Names that keep apart -/

/-- No two enumerated names among some give one union name. -/
def Apart (types : List MetadataType) (names : List String) : Prop :=
  ∀ a ∈ names, ∀ b ∈ names, isEnumerated types a = true → isEnumerated types b = true →
    Text.pascalCase a = Text.pascalCase b → a = b

theorem Apart.mono {types : List MetadataType} {names names' : List String}
    (hapart : Apart types names') (hsub : names ⊆ names') : Apart types names :=
  fun a ha b hb => hapart a (hsub ha) b (hsub hb)

theorem apart_concat_iff {types : List MetadataType} {names : List String} {name : String}
    (hapart : Apart types names) :
    Apart types (names ++ [name]) ↔ (isEnumerated types name = true →
      ∀ other ∈ names, isEnumerated types other = true →
        Text.pascalCase other = Text.pascalCase name → other = name) := by
  constructor
  · intro hall henum other hother
    exact fun heo => hall other (by simp [hother]) name (by simp) heo henum
  · intro hnew a ha b hb hea heb heq
    rw [List.mem_append, List.mem_singleton] at ha hb
    rcases ha with ha | rfl <;> rcases hb with hb | rfl
    · exact hapart a ha b hb hea heb heq
    · exact hnew heb a ha hea heq
    · exact (hnew hea b hb heb heq.symm).symm
    · rfl

/-- Among names that keep apart, a union clashes exactly with that of another name. -/
theorem clash?_eq_none_iff {types : List MetadataType} {names : List String}
    (hapart : Apart types names) (name : String) :
    clash? types names name = none ↔ ∀ other ∈ names, isEnumerated types other = true →
      Text.pascalCase other = Text.pascalCase name → other = name := by
  unfold clash?
  cases hholder : holder? types names name with
  | none =>
      refine iff_of_true rfl fun other hother henum heq => ?_
      have hfalse := List.find?_eq_none.mp hholder other
        (MetadataType.mem_enumeratedAmong.mpr ⟨hother, henum⟩)
      simp [heq] at hfalse
  | some first =>
      obtain ⟨hfirst, hefirst, hcase⟩ := holds_of_holder? hholder
      by_cases hname : first = name
      · subst hname
        refine iff_of_true (if_pos rfl) fun other hother henum heq => ?_
        exact hapart other hother first hfirst henum hefirst heq
      · refine iff_of_false (by simp [hname]) fun hall => ?_
        exact hname (hall first hfirst hefirst hcase)

/-- Among names that keep apart, one at most holds a union of another name, and a clash names it. -/
theorem clash?_eq_some_iff {types : List MetadataType} {names : List String}
    (hapart : Apart types names) (name : String) (e : ResolutionError) :
    clash? types names name = some e
      ↔ ∃ holder ∈ names, isEnumerated types holder = true ∧ holder ≠ name
        ∧ Text.pascalCase holder = Text.pascalCase name
        ∧ e = .typeNameCollision (Text.pascalCase name) (Registry.claimant holder)
            (Registry.claimant name) := by
  constructor
  · intro hclash
    unfold clash? at hclash
    split at hclash
    next holder hholder =>
      obtain ⟨hmem, henum, hcase⟩ := holds_of_holder? hholder
      split at hclash
      next => cases hclash
      next hne => exact ⟨holder, hmem, henum, hne, hcase, (Option.some.inj hclash).symm⟩
    next => cases hclash
  · rintro ⟨holder, hmem, henum, hne, hcase, rfl⟩
    have hsome : (holder? types names name).isSome = true := by
      rw [holder?, List.find?_isSome]
      exact ⟨holder, MetadataType.mem_enumeratedAmong.mpr ⟨hmem, henum⟩, by simp [hcase]⟩
    obtain ⟨first, hfirst⟩ := Option.isSome_iff_exists.mp hsome
    obtain ⟨hmem', henum', hcase'⟩ := holds_of_holder? hfirst
    obtain rfl := hapart first hmem' holder hmem henum' henum (hcase'.trans hcase.symm)
    simp [clash?, hfirst, hne]

end TelemetryTypes
