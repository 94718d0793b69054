import TelemetryTypes.Proofs.Definitions.Merging
import TelemetryTypes.Proofs.Synthesis.Agreement

/-!
# The bundled definitions in a run

The bundled types are merged in behind all others, so a name is looked up among them only if no
document declares it. A run asks for names one after the other: up to the first one that only the
bundled types have, it finds the same with them and without, and at that one the run without them
fails. A type that nothing asks for has no effect, and no metric is bundled.
-/

namespace TelemetryTypes

open MetadataType (first? firstD)

/-- Where one list of types lacks what it does not share with another, a run meets on both the same
fault, or on the first one the lack of a name, or they agree on all that is demanded. -/
theorem settle_eq_or_unknown {types types' : List MetadataType}
    (hlack : ∀ name, first? types name = first? types' name ∨ first? types name = none)
    {names : List String} (hnames : AgreeOn types types' names) (demands : List Demand) :
    AgreeOn types types' (names ++ demands.map Demand.name)
      ∨ (∃ e, (Demand.settle types names demands).1 = some e
          ∧ (Demand.settle types' names demands).1 = some e)
      ∨ ∃ owner name, (Demand.settle types names demands).1 = some (.unknownMetadataType owner name)
          ∧ first? types name = none ∧ first? types' name ≠ none := by
  induction demands generalizing names with
  | nil => exact .inl (by simpa using hnames)
  | cons q rest ih =>
      simp only [Demand.settle]
      by_cases hname : first? types q.name = first? types' q.name
      · rw [← hnames.fault?_eq hname]
        cases hfault : q.fault? types names with
        | some e => exact .inr (.inl ⟨e, rfl, rfl⟩)
        | none => simpa using ih (hnames.concat hname)
      · have hnone : first? types q.name = none := (hlack q.name).resolve_left hname
        have hsome : first? types' q.name ≠ none := fun h => hname (hnone.trans h.symm)
        cases hreserved : q.byMetric && ClientField.isReserved q.name with
        | true =>
            refine .inr (.inl ⟨.reservedField q.owner q.name, ?_, ?_⟩) <;>
              simp [Demand.fault?, hreserved]
        | false =>
            refine .inr (.inr ⟨q.owner, q.name, ?_, hnone, hsome⟩)
            simp [Demand.fault?, hreserved, unresolved?, hnone]

theorem generate_eq_or_unknown {d d' : Definitions} (c : Config) (hmetrics : d.metrics = d'.metrics)
    (hlack : ∀ name, first? d.types name = first? d'.types name ∨ first? d.types name = none) :
    generate d' c = generate d c
      ∨ ∃ owner name, generate d c = .error (.resolution (.unknownMetadataType owner name))
          ∧ first? d.types name = none ∧ first? d'.types name ≠ none := by
  have hnone : AgreeOn d.types d'.types [] := fun _ hname => nomatch hname
  rcases settle_eq_or_unknown hlack hnone (Synthesis.demands c d) with
    hagree | ⟨e, hfault, hfault'⟩ | ⟨owner, name, hfault, hmissing, hpresent⟩
  · exact .inl (generate_eq_of_agree hmetrics hagree).symm
  · rw [Synthesis.demands_eq hmetrics] at hfault'
    exact .inl (by simp only [generate_eq, hfault, hfault'])
  · cases hcheck : c.check with
    | error e => exact .inl (by simp only [generate_eq, hcheck])
    | ok _ =>
        right
        refine ⟨owner, name, ?_, hmissing, hpresent⟩
        simp only [generate_eq, hcheck, hfault]

/-- The settings say only for the merge whether the bundled definitions are wanted. -/
theorem generate_includeDefaults (d : Definitions) (c : Config) (b : Bool) :
    generate d { c with includeDefaults := b } = generate d c := rfl

/-! ### Merging them in -/

namespace Definitions

theorem metrics_merge_bundled (documents : List Definitions) :
    (merge (documents ++ [bundled])).metrics = (merge documents).metrics := by
  simp [merge, concat, bundled]

theorem first?_merge_bundled (documents : List Definitions) (name : String) :
    first? (merge (documents ++ [bundled])).types name
      = (first? (merge documents).types name).or (first? bundledTypes name) := by
  rw [first?_merge_append, first?_types_merge [bundled]]
  simp [bundled]

/-- What the documents lack and the bundled definitions do not is a bundled name that no document
declares. -/
theorem bundled_of_lack {documents : List Definitions} {name : String}
    (hmissing : first? (merge documents).types name = none)
    (hpresent : first? (merge (documents ++ [bundled])).types name ≠ none) :
    name ∈ bundledTypes.map MetadataType.name
      ∧ ∀ document ∈ documents, name ∉ document.types.map MetadataType.name := by
  constructor
  · rw [first?_merge_bundled, hmissing, Option.none_or] at hpresent
    exact MetadataType.first?_ne_none_iff.mp hpresent
  · intro document hdocument hname
    obtain ⟨t, ht, rfl⟩ := List.mem_map.mp hname
    rw [first?_types_merge] at hmissing
    refine MetadataType.first?_ne_none_iff.mpr ?_ hmissing
    exact List.mem_map_of_mem (List.mem_flatMap.mpr ⟨document, hdocument, ht⟩)

end Definitions

/-- **The bundled definitions decide nothing that the documents decide.** A run has the same outcome
with them and without, unless the run without them fails for want of a bundled name that no document
declares; where the run without them gives a unit, the run with them gives the same. -/
theorem bundled_decide_nothing (documents : List Definitions) (c : Config) :
    (generateDocuments documents { c with includeDefaults := true }
        = generateDocuments documents { c with includeDefaults := false }
      ∨ ∃ owner name, generateDocuments documents { c with includeDefaults := false }
          = .error (.resolution (.unknownMetadataType owner name))
        ∧ name ∈ Definitions.bundledTypes.map MetadataType.name
        ∧ ∀ document ∈ documents, name ∉ document.types.map MetadataType.name)
    ∧ ∀ u, generateDocuments documents { c with includeDefaults := false } = .ok u →
        generateDocuments documents { c with includeDefaults := true } = .ok u := by
  have hwithout : generateDocuments documents { c with includeDefaults := false }
      = generate (.merge documents) c := generate_includeDefaults _ c false
  have hwith : generateDocuments documents { c with includeDefaults := true }
      = generate (.merge (documents ++ [.bundled])) c := generate_includeDefaults _ c true
  have hmetrics := (Definitions.metrics_merge_bundled documents).symm
  have hlack : ∀ name, first? (Definitions.merge documents).types name
        = first? (Definitions.merge (documents ++ [.bundled])).types name
      ∨ first? (Definitions.merge documents).types name = none := by
    intro name
    rw [Definitions.first?_merge_bundled]
    cases first? (Definitions.merge documents).types name <;> simp
  rw [hwith, hwithout]
  rcases generate_eq_or_unknown c hmetrics hlack with
    hsame | ⟨owner, name, hunknown, hmissing, hpresent⟩
  · exact ⟨.inl hsame, fun u hu => hsame.trans hu⟩
  · have hname := Definitions.bundled_of_lack hmissing hpresent
    exact ⟨.inr ⟨owner, name, hunknown, hname⟩, fun u hu => nomatch hunknown.symm.trans hu⟩

/-- The settings of a run that is given none ask for bundled names. -/
example : generateDocuments [] { Config.default with includeDefaults := false }
    = .error (.resolution (.unknownMetadataType "MetricBase" "awsAccount")) := rfl

end TelemetryTypes
