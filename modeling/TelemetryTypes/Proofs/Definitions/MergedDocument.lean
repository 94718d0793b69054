import TelemetryTypes.Proofs.Definitions.Lawful
import TelemetryTypes.Proofs.Definitions.Writing

/-!
# The merge as a document

Documents are held to the schema one by one, and only the first is ever asked of what a merge makes
of them. But the schema asks nothing of a document that it does not ask of each record alone, a
record that was read from a document is written as one of the same form, and a merge has no records
of its own. So the merge of accepted documents is itself a document when it is written, and is read
back as it was.
-/

namespace TelemetryTypes.Definitions

/-! ### Records that are written -/

theorem isRecord_ofEntries {Entry : String × Json → Prop} {required : List String}
    {entries : List (String × Json)} (hnodup : (entries.map Prod.fst).Nodup)
    (hentries : ∀ entry ∈ entries, Entry entry)
    (hrequired : ∀ name ∈ required, name ∈ entries.map Prod.fst) :
    IsRecord Entry required (.ofEntries entries) := by
  obtain ⟨kept, hkept, hperm⟩ := Json.exists_ofEntries_eq hnodup
  refine ⟨kept, hkept, fun entry hentry => hentries entry (hperm.mem_iff.mp hentry), ?_⟩
  exact fun name hname => (hperm.map Prod.fst).mem_iff.mpr (hrequired name hname)

theorem isListOf_map {α : Type} {Item : Json → Prop} {encode : α → Json} {items : List α}
    (h : ∀ a ∈ items, Item (encode a)) : IsListOf Item (.array (items.map encode)) :=
  ⟨items.map encode, rfl, List.forall_mem_map.mpr h⟩

theorem isMetadataType_toJson {t : MetadataType} (hlawful : t.Lawful)
    (hone : t.allowedValues = none ∨ t.kind = none) : IsMetadataType t.toJson := by
  have hwritten := t.writtenAs_toJson
  constructor
  · refine isRecord_ofEntries t.keys_nodup ?_ (by simp [MetadataType.entries])
    simp only [MetadataType.entries, List.forall_mem_append, List.forall_mem_singleton,
      forall_mem_optionalEntry_iff]
    refine ⟨⟨⟨.name hlawful.name, fun s _ => .description s⟩, fun values hvalues => ?_⟩,
      fun s _ => .kind s⟩
    obtain ⟨hne, hnodup⟩ := hlawful.allowedValues values hvalues
    exact .allowedValues hne hnodup
  · rw [hwritten.allowedValues, hwritten.kind, Option.map_eq_none_iff, Option.map_eq_none_iff]
    exact hone

theorem isReference_toJson {r : Reference} (hname : r.typeName ≠ "") : IsReference r.toJson := by
  refine isRecord_ofEntries r.keys_nodup ?_ (by simp [Reference.entries])
  simp only [Reference.entries, List.forall_mem_append, List.forall_mem_singleton,
    forall_mem_optionalEntry_iff]
  exact ⟨⟨.typeName hname, fun b _ => .required b⟩, fun s _ => .description s⟩

theorem isMetric_toJson {m : Metric} (hlawful : m.Lawful)
    (hreferences : ∀ r ∈ m.metadata, IsReference r.toJson) : IsMetric m.toJson := by
  refine isRecord_ofEntries m.keys_nodup ?_ (by simp [Metric.entries])
  simp only [Metric.entries_eq, List.forall_mem_append, List.forall_mem_cons,
    forall_mem_optionalEntry_iff]
  have hmetadata : ∀ references ∈ m.references?,
      MetricEntry ("metadata", .array (references.map Reference.toJson)) := by
    intro references hmem
    obtain rfl : m.metadata = references := by simp_all [Metric.references?]
    exact .metadata (isListOf_map hreferences)
  exact ⟨⟨⟨⟨⟨.name hlawful.name, .description m.description, List.forall_mem_nil _⟩,
    fun s hunit => .unit (hlawful.unit s hunit)⟩, fun b _ => .passive b⟩,
    fun b _ => .trackPerformance b⟩, hmetadata⟩

/-- What is written for definitions is a document when every record in them is written as one of
the format. -/
theorem isDocument_toJson {d : Definitions} (htypes : ∀ t ∈ d.types, IsMetadataType t.toJson)
    (hmetrics : ∀ m ∈ d.metrics, IsMetric m.toJson) : IsDocument d.toJson := by
  refine isRecord_ofEntries d.keys_nodup ?_ (List.forall_mem_nil _)
  simp only [entries, List.forall_mem_cons]
  exact ⟨.types (isListOf_map htypes), .metrics (isListOf_map hmetrics), List.forall_mem_nil _⟩

/-! ### Records that were read -/

/-- Definitions whose records are all written as ones of the format. -/
structure Presentable (d : Definitions) : Prop where
  types : ∀ t ∈ d.types, IsMetadataType t.toJson
  metrics : ∀ m ∈ d.metrics, IsMetric m.toJson

theorem IsMetadataType.toJson {t : MetadataType} {value : Json} (h : IsMetadataType value)
    (ht : t.WrittenAs value) : IsMetadataType t.toJson := by
  have hone := h.2
  rw [ht.allowedValues, ht.kind, Option.map_eq_none_iff, Option.map_eq_none_iff] at hone
  exact isMetadataType_toJson (h.lawful ht) hone

theorem IsReference.toJson {r : Reference} {value : Json} (h : IsReference value)
    (hr : r.WrittenAs value) : IsReference r.toJson :=
  isReference_toJson (by simpa [referenceEntry_iff] using IsRecord.entry_of_get? h hr.typeName)

theorem IsMetric.toJson {m : Metric} {value : Json} (h : IsMetric value) (hm : m.WrittenAs value) :
    IsMetric m.toJson := by
  have hlist : ∀ field ∈ value.get? "metadata", IsListOf IsReference field := fun field hfield => by
    simpa [metricEntry_iff] using IsRecord.entry_of_get? h hfield
  exact isMetric_toJson (h.lawful hm)
    (forall_of_fieldWrittenAs hm.metadata hlist fun _ _ => IsReference.toJson)

theorem presentable_of_ofJson {value : Json} {source : String} {d : Definitions}
    (h : ofJson value source = .ok d) : d.Presentable := by
  obtain ⟨hdocument, hd⟩ := isDocument_of_ofJson h
  constructor
  · refine forall_of_fieldWrittenAs hd.types (fun field hfield => ?_) fun _ _ =>
      IsMetadataType.toJson
    simpa [documentEntry_iff] using IsRecord.entry_of_get? hdocument hfield
  · refine forall_of_fieldWrittenAs hd.metrics (fun field hfield => ?_) fun _ _ => IsMetric.toJson
    simpa [documentEntry_iff] using IsRecord.entry_of_get? hdocument hfield

theorem presentable_bundled : bundled.Presentable where
  types t ht := isMetadataType_toJson (lawful_bundled.types t ht)
    ((by decide : ∀ t ∈ bundledTypes, t.allowedValues = none ∨ t.kind = none) t ht)
  metrics := List.forall_mem_nil _

theorem Presentable.merge {documents : List Definitions} (h : ∀ d ∈ documents, d.Presentable) :
    (merge documents).Presentable := by
  constructor
  · intro t ht
    obtain ⟨d, hd, ht⟩ := exists_of_mem_types_merge ht
    exact (h d hd).types t ht
  · intro m hm
    obtain ⟨d, hd, hm⟩ := exists_of_mem_metrics_merge hm
    exact (h d hd).metrics m hm

/-- Presentable definitions are written as a document that is accepted, whatever it is called, and
read back as they were. -/
theorem Presentable.ofJson_toJson {d : Definitions} (h : d.Presentable) (source : String) :
    ofJson d.toJson source = .ok d :=
  ofJson_of_isDocument source (isDocument_toJson h.types h.metrics) d.writtenAs_toJson

/-- **The merge of accepted documents is an accepted document.** It is written as a document that
is accepted and read back as the merge, so writing it again changes nothing; and so is all that is
resolved in a run, the bundled definitions included. -/
theorem merge_accepted {named : List (String × Json)} {documents : List Definitions}
    (h : List.Forall₂ (fun document d => ofJson document.2 document.1 = .ok d) named documents)
    (source : String) :
    ofJson (merge documents).toJson source = .ok (merge documents)
      ∧ toJson <$> ofJson (merge documents).toJson source = .ok (merge documents).toJson
      ∧ ∀ c, ofJson (merge (withBundled documents c)).toJson source
          = .ok (merge (withBundled documents c)) := by
  have hread : ∀ d ∈ documents, d.Presentable := by
    intro d hd
    obtain ⟨i, hi, rfl⟩ := List.getElem_of_mem hd
    exact presentable_of_ofJson (h.get (h.length_eq ▸ hi) hi)
  have hmerge := (Presentable.merge hread).ofJson_toJson source
  refine ⟨hmerge, by rw [hmerge]; rfl, fun c => ?_⟩
  refine (Presentable.merge fun d hd => ?_).ofJson_toJson source
  rcases mem_or_eq_bundled hd with hdocument | rfl
  · exact hread d hdocument
  · exact presentable_bundled

/-- A document that declares a type twice and has a metric with an empty list of references. -/
def repeatingDocument : Json :=
  .object [("metrics", .array [.object [("description", .string "Saves a file"),
      ("metadata", .array []), ("name", .string "file_save")]]),
    ("types", .array [.object [("allowedValues", .array [.string "node"]),
      ("name", .string "runtime")], .object [("name", .string "runtime"), ("type", .string "int")]])]

def repeating : Definitions where
  types := [.enumerated "runtime" ["node"], .primitive "runtime" "int"]
  metrics := [.bare "file_save" "Saves a file" []]

theorem merge_accepted_repeating :
    ofJson repeatingDocument "a.json" = .ok repeating
      ∧ ofJson (merge [repeating]).toJson "b.json" = .ok (merge [repeating]) := by
  have hread : ofJson repeatingDocument "a.json" = .ok repeating := rfl
  have hnamed : List.Forall₂ (fun document d => ofJson document.2 document.1 = .ok d)
      [("a.json", repeatingDocument)] [repeating] := .cons hread .nil
  exact ⟨hread, (merge_accepted hnamed "b.json").1⟩

end TelemetryTypes.Definitions
