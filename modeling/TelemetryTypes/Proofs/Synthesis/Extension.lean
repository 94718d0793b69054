import Mathlib.Data.List.Infix
import TelemetryTypes.Proofs.Definitions.Merging
import TelemetryTypes.Proofs.Synthesis.Agreement
import TelemetryTypes.Proofs.Synthesis.Alignment
import TelemetryTypes.Proofs.Synthesis.References

/-!
# Sources that grow

Documents that are put behind others add to a source and change nothing in it. What they declare
anew is not looked at, because every name that the source carries already has a first type; and what
they add is resolved after everything else, so that the registry of unions only grows at its end.
`Grows` says what this comes to for the declarations of two sources.
-/

namespace TelemetryTypes

open MetadataType (first? isEnumerated enumeratedAmong)

/-- The second table has all that the first one has, in its place, and as the same entries of its
object. -/
structure RuntimeTable.Grows (t t' : RuntimeTable) : Prop where
  entries : t.entries <+: t'.entries
  json : ∃ kept kept', t.toJson = .object kept ∧ t'.toJson = .object kept' ∧ kept ⊆ kept'
    ∧ ∀ entry ∈ kept, t'.toJson.get? entry.1 = some entry.2

/-- The second unit has the base type of the first one and begins with everything else in it. -/
structure SourceUnit.Grows (u v : SourceUnit) : Prop where
  metrics : u.metrics <+: v.metrics
  unions : u.unions <+: v.unions
  interfaces : ∃ base own own', u.interfaces = base :: own ∧ v.interfaces = base :: own'
    ∧ own <+: own' ∧ ∀ i ∈ own', i.extends? = some base.name
  shapeMap : ∃ entries entries', u.shapeMap? = some entries ∧ v.shapeMap? = some entries'
    ∧ entries <+: entries'
  runtimeTable : ∃ t t', u.runtimeTable? = some t ∧ v.runtimeTable? = some t' ∧ t.Grows t'
  accessors : ∃ client client', u.accessors? = some client ∧ v.accessors? = some client'
    ∧ client.name = client'.name ∧ client.accessors <+: client'.accessors

/-! ### What a longer run resolves -/

theorem AgreeOn.ofNames_prefix {types types' : List MetadataType} {names names' : List String}
    (hagree : AgreeOn types types' names) (hnames : names <+: names') :
    (Registry.ofNames types names).unions <+: (Registry.ofNames types' names').unions := by
  have hkept : enumeratedAmong types' names <+: enumeratedAmong types' names' :=
    keepFirst_prefix id (hnames.filter (isEnumerated types'))
  rw [hagree.ofNames_eq]
  exact (hkept.map (Registration.ofName types')).map Registration.union

namespace Synthesis

variable {c : Config} {d d' : Definitions}

theorem resolvedNames_prefix (hmetrics : d.metrics <+: d'.metrics) :
    resolvedNames c d <+: resolvedNames c d' := by
  have hdemands : demands c d <+: demands c d' :=
    (List.prefix_append_right_inj (baseDemands c)).mpr (hmetrics.flatMap metricDemands)
  exact hdemands.map Demand.name

theorem metricsOf_prefix (hmetrics : d.metrics <+: d'.metrics)
    (hagree : AgreeOn d.types d'.types (resolvedNames c d)) : metricsOf c d <+: metricsOf c d' := by
  -- The metrics of both resolve alike; those that only the second one has come behind them.
  have hsame : metricsOf c d = metricsOf c ⟨d'.types, d.metrics⟩ := metricsOf_eq rfl hagree
  rw [hsame]
  exact hmetrics.map (metricOf d'.types c)

theorem baseTypeOf_eq_of_agree (hagree : AgreeOn d.types d'.types (resolvedNames c d)) :
    baseTypeOf d.types c = baseTypeOf d'.types c := by
  apply AgreeOn.baseTypeOf_eq
  apply hagree.mono
  rw [resolvedNames_eq]
  exact List.subset_append_left _ _

end Synthesis

/-! ### The table as an object -/

theorem RuntimeTable.grows_of_prefix {t t' : RuntimeTable} (hstart : t.entries <+: t'.entries)
    (hnodup : (t'.entries.map Prod.fst).Nodup) : t.Grows t' := by
  have hnodup' : (t.entries.map Prod.fst).Nodup := hnodup.sublist (hstart.map Prod.fst).sublist
  obtain ⟨kept, hkept, hperm⟩ := exists_toJson_eq hnodup'
  obtain ⟨kept', hkept', hperm'⟩ := exists_toJson_eq hnodup
  have hsubset : kept ⊆ kept' := by
    intro entry hentry
    have hmem := (hstart.map fun e => (e.1, e.2.toJson)).subset (hperm.mem_iff.mp hentry)
    exact hperm'.mem_iff.mpr hmem
  refine ⟨hstart, kept, kept', hkept, hkept', hsubset, fun entry hentry => ?_⟩
  obtain ⟨e, he, rfl⟩ := List.mem_map.mp (hperm'.mem_iff.mp (hsubset hentry))
  exact get?_toJson hnodup he

namespace Acceptable

variable {c : Config} {d d' : Definitions}

/-- Whatever is declared behind them, the types that a source carries stay the first ones. -/
theorem agreeOn_merge_append {front : List Definitions} (h : Acceptable (.merge front) c)
    (back : List Definitions) :
    AgreeOn (Definitions.merge front).types (Definitions.merge (front ++ back)).types
      (Synthesis.resolvedNames c (.merge front)) := by
  intro name hname
  obtain ⟨t, hfirst, _⟩ := h.declared name ((Synthesis.mem_resolvedNames c _).mp hname)
  have hsome : first? (Definitions.merge front).types name = some t := hfirst
  rw [Definitions.first?_merge_append, hsome, Option.some_or]

theorem grows (h : Acceptable d' c) (hmetrics : d.metrics <+: d'.metrics)
    (hagree : AgreeOn d.types d'.types (Synthesis.resolvedNames c d)) :
    (Synthesis.unitOf c d).Grows (Synthesis.unitOf c d') := by
  have hresolved := Synthesis.metricsOf_prefix hmetrics hagree
  have hbase := Synthesis.baseTypeOf_eq_of_agree hagree
  constructor
  · exact hresolved
  · rw [Synthesis.unions_unitOf, Synthesis.unions_unitOf]
    exact hagree.ofNames_prefix (Synthesis.resolvedNames_prefix hmetrics)
  · refine ⟨_, _, _, Synthesis.interfaces_unitOf c d, ?_,
      hresolved.map (·.interface c.baseTypeName), ?_⟩
    · rw [Synthesis.interfaces_unitOf, hbase]
    · rw [List.forall_mem_map]
      exact fun _ _ => rfl
  · exact ⟨_, _, Synthesis.shapeMap?_unitOf c d, Synthesis.shapeMap?_unitOf c d', hresolved.map _⟩
  · exact ⟨_, _, Synthesis.runtimeTable?_assemble c _ _ _, Synthesis.runtimeTable?_assemble c _ _ _,
      RuntimeTable.grows_of_prefix (hresolved.map _) h.record_names_nodup⟩
  · exact ⟨_, _, Synthesis.accessors?_unitOf c d, Synthesis.accessors?_unitOf c d', rfl, hresolved.map _⟩

end Acceptable

/-- **Later documents only add.** Where some documents give a source and still do with others behind
them, the second source has the base type of the first one and begins with its metrics, unions,
interfaces, shapes, records and accessors; the object of its table has every entry of the first. -/
theorem generate_merge_append_grows {front back : List Definitions} {c : Config} {u v : SourceUnit}
    (hu : generate (.merge front) c = .ok u) (hv : generate (.merge (front ++ back)) c = .ok v) :
    u.Grows v := by
  obtain ⟨hfront, rfl⟩ := (generate_eq_ok_iff_acceptable _ c u).mp hu
  obtain ⟨hall, rfl⟩ := (generate_eq_ok_iff_acceptable _ c v).mp hv
  exact hall.grows (Definitions.metrics_merge_prefix front back) (hfront.agreeOn_merge_append back)

/-- Definitions that declare the types of the small source anew, and one more metric. -/
def Definitions.sampleLater : Definitions where
  types := [.bare "duration", .primitive "result" "int", .enumerated "runtime" ["node"]]
  metrics := [.bare "file_save" "Saves a file" [.requiredTo "runtime", .optionalTo "duration"],
    .bare "lambda_invoke" "Declared before" []]

theorem generate_merge_append_grows_sample :
    (Synthesis.unitOf .sample (.merge [.sample])).Grows
      (Synthesis.unitOf .sample (.merge [.sample, .sampleLater])) := by
  have hfront : generate (.merge [.sample]) .sample
      = .ok (Synthesis.unitOf .sample (.merge [.sample])) := rfl
  have hall : generate (.merge ([.sample] ++ [.sampleLater])) .sample
      = .ok (Synthesis.unitOf .sample (.merge [.sample, .sampleLater])) := rfl
  exact generate_merge_append_grows hfront hall

end TelemetryTypes
