import TelemetryTypes.Proofs.Synthesis.Acceptance
import TelemetryTypes.Proofs.Synthesis.Agreement

/-!
# Types that nothing refers to

What a run reads of the types is the first type of every name that its source carries. So a type
that is neither common nor referred to may be anything at all, and so may a later type of a name
that an earlier one has: of a kind that does not exist, or with a union that would collide. Without
them, and in any order, the types that are left give the same unit, and the same error where there
is none.
-/

namespace TelemetryTypes

open MetadataType (first?)

namespace Definitions

/-- The same metrics over other types. -/
def withTypes (d : Definitions) (types : List MetadataType) : Definitions :=
  ⟨types, d.metrics⟩

/-- The types that count: the first one of every name that a source carries. -/
def essentialTypes (d : Definitions) (c : Config) : List MetadataType :=
  (keepFirst MetadataType.name d.types).filter (·.name ∈ d.carriedNames c)

variable (d : Definitions) (c : Config)

theorem essentialTypes_names_nodup : ((d.essentialTypes c).map MetadataType.name).Nodup :=
  (nodup_map_keepFirst MetadataType.name d.types).sublist (List.filter_sublist.map _)

theorem first?_essentialTypes {name : String} (hname : name ∈ d.carriedNames c) :
    first? (d.essentialTypes c) name = first? d.types name := by
  have hnodup := nodup_map_keepFirst MetadataType.name d.types
  rw [first?, essentialTypes, find?_filter_of_nodup MetadataType.name hnodup, find?_keepFirst,
    ← first?]
  cases hfirst : first? d.types name with
  | none => rfl
  | some t =>
      have hcarried : t.name ∈ d.carriedNames c := by rwa [MetadataType.name_of_first? hfirst]
      simp [Option.filter, hcarried]

end Definitions

/-- A run resolves the names that its source carries, so it is enough that these have the same first
types. -/
theorem generate_eq_of_agree_carried {c : Config} {d d' : Definitions}
    (hmetrics : d.metrics = d'.metrics) (hagree : AgreeOn d.types d'.types (d.carriedNames c)) :
    generate d c = generate d' c :=
  generate_eq_of_agree hmetrics
    (hagree.mono fun _ hname => (Synthesis.mem_resolvedNames c d).mp hname)

/-- **Only the types that are referred to matter.** Definitions with the same metrics have the same
outcome, unit or error, when every common name and every name that a metric refers to has the same
first type in both. In particular the first types of these names are enough, in any order. -/
theorem only_carried_types_matter (d : Definitions) (c : Config) :
    (∀ d' : Definitions, d'.metrics = d.metrics →
        (∀ name ∈ c.commonMetadata, d'.metadataType? name = d.metadataType? name) →
        (∀ m ∈ d.metrics, ∀ r ∈ m.metadata,
          d'.metadataType? r.typeName = d.metadataType? r.typeName) →
        generate d' c = generate d c)
      ∧ ∀ types, types.Perm (d.essentialTypes c) →
        generate (d.withTypes types) c = generate d c := by
  constructor
  · intro d' hmetrics hcommon hreferred
    have hagree : AgreeOn d.types d'.types (d.carriedNames c) := by
      intro name hname
      rcases List.mem_append.mp hname with hname | hname
      · exact (hcommon name hname).symm
      · obtain ⟨m, hm, hname⟩ := List.mem_flatMap.mp hname
        obtain ⟨r, hr, rfl⟩ := List.mem_map.mp hname
        exact (hreferred m hm r hr).symm
    exact (generate_eq_of_agree_carried hmetrics.symm hagree).symm
  · intro types hperm
    have hagree : AgreeOn d.types (d.withTypes types).types (d.carriedNames c) := by
      intro name hname
      -- No name is left twice, so there is no first type of it for the order to decide.
      rw [← Definitions.first?_essentialTypes d c hname]
      exact find?_eq_of_perm MetadataType.name hperm.symm (d.essentialTypes_names_nodup c) name
    have hmetrics : d.metrics = (d.withTypes types).metrics := rfl
    exact (generate_eq_of_agree_carried hmetrics hagree).symm

/-- The types of the sample in another order, one of them declared again to no effect, and with
types that nothing refers to: one of a kind that does not exist, and one whose union would take the
name of another. -/
def Definitions.sampleCluttered : Definitions :=
  Definitions.sample.withTypes [.primitive "load" "percentage", .bare "awsRegion",
    .primitive "duration" "double", .enumerated "result" ["Succeeded", "Failed"],
    .primitive "result" "int", .enumerated "Result" ["Unknown"]]

theorem only_carried_types_matter_sample :
    generate .sampleCluttered .sample = generate .sample .sample
      ∧ generate (Definitions.sample.withTypes Definitions.sample.types.reverse) .sample
        = generate .sample .sample :=
  ⟨(only_carried_types_matter .sample .sample).1 .sampleCluttered rfl (by decide) (by decide),
    (only_carried_types_matter .sample .sample).2 _ (by decide)⟩

end TelemetryTypes
