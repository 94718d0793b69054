import TelemetryTypes.Proofs.Definitions.Reading

/-!
# What is written for definitions

A record is written as an object in which each of its fields is found under its key, whatever the
texts in it and whichever of its options are there; so what is written is read back as the record.
An absent option and an empty list of references have no entry, and are what an absent entry is read
as.
-/

namespace TelemetryTypes

open Json (lookup_append lookup_cons lookup_nil)

/-! ### Optional entries -/

theorem lookup_optionalEntry {α : Type} (key name : String) (encode : α → Json) (o : Option α) :
    Json.lookup key (optionalEntry name encode o) = if name = key then o.map encode else none := by
  cases o with
  | none => simp [optionalEntry, lookup_nil]
  | some a => rw [optionalEntry, lookup_cons, lookup_nil, Option.map_some]

theorem map_fst_optionalEntry_sublist {α : Type} (key : String) (encode : α → Json)
    (o : Option α) : ((optionalEntry key encode o).map Prod.fst).Sublist [key] := by
  cases o <;> simp [optionalEntry]

theorem forall_mem_optionalEntry_iff {α : Type} {P : String × Json → Prop} {key : String}
    {encode : α → Json} {o : Option α} :
    (∀ entry ∈ optionalEntry key encode o, P entry) ↔ ∀ a ∈ o, P (key, encode a) := by
  cases o <;> simp [optionalEntry]

theorem fieldWrittenAs_map {α : Type} {Item : α → Json → Prop} {encode : α → Json}
    (hitem : ∀ a, Item a (encode a)) (items : List α) :
    FieldWrittenAs Item items (some (.array (items.map encode))) := by
  refine ⟨items.map encode, rfl, List.forall₂_map_right_iff.mpr ?_⟩
  exact List.forall₂_same.mpr fun a _ => hitem a

/-! ### Metadata types -/

namespace MetadataType

theorem keys_nodup (t : MetadataType) : (t.entries.map Prod.fst).Nodup := by
  have hall : ["name", "description", "allowedValues", "type"].Nodup := by decide
  refine hall.sublist ?_
  simp only [entries, List.map_append]
  exact (((List.Sublist.refl ["name"]).append (map_fst_optionalEntry_sublist _ _ _)).append
    (map_fst_optionalEntry_sublist _ _ _)).append (map_fst_optionalEntry_sublist _ _ _)

theorem get?_toJson (t : MetadataType) (key : String) :
    t.toJson.get? key = Json.lookup key t.entries :=
  Json.get?_ofEntries t.keys_nodup key

theorem writtenAs_toJson (t : MetadataType) : t.WrittenAs t.toJson := by
  have hvalues : stringsToJson = fun values => .array (values.map .string) := rfl
  constructor <;>
    simp [get?_toJson, entries, lookup_append, lookup_cons, lookup_optionalEntry, hvalues]

end MetadataType

/-! ### References -/

namespace Reference

theorem keys_nodup (r : Reference) : (r.entries.map Prod.fst).Nodup := by
  have hall : ["type", "required", "description"].Nodup := by decide
  refine hall.sublist ?_
  simp only [entries, List.map_append]
  exact ((List.Sublist.refl ["type"]).append (map_fst_optionalEntry_sublist _ _ _)).append
    (map_fst_optionalEntry_sublist _ _ _)

theorem get?_toJson (r : Reference) (key : String) :
    r.toJson.get? key = Json.lookup key r.entries :=
  Json.get?_ofEntries r.keys_nodup key

theorem writtenAs_toJson (r : Reference) : r.WrittenAs r.toJson := by
  constructor <;> simp [get?_toJson, entries, lookup_append, lookup_cons, lookup_optionalEntry]

end Reference

/-! ### Metrics -/

namespace Metric

/-- The references of a metric, as an option that is absent when there are none. -/
def references? (m : Metric) : Option (List Reference) :=
  if m.metadata.isEmpty then none else some m.metadata

theorem entries_eq (m : Metric) :
    m.entries = [("name", .string m.name), ("description", .string m.description)]
      ++ optionalEntry "unit" .string m.unit ++ optionalEntry "passive" .bool m.passive
      ++ optionalEntry "trackPerformance" .bool m.trackPerformance
      ++ optionalEntry "metadata" (fun rs => .array (rs.map Reference.toJson)) m.references? := by
  rw [entries, references?]
  split <;> rfl

theorem keys_nodup (m : Metric) : (m.entries.map Prod.fst).Nodup := by
  have hall : ["name", "description", "unit", "passive", "trackPerformance", "metadata"].Nodup := by
    decide
  refine hall.sublist ?_
  simp only [entries_eq, List.map_append]
  exact ((((List.Sublist.refl ["name", "description"]).append
    (map_fst_optionalEntry_sublist _ _ _)).append (map_fst_optionalEntry_sublist _ _ _)).append
    (map_fst_optionalEntry_sublist _ _ _)).append (map_fst_optionalEntry_sublist _ _ _)

theorem get?_toJson (m : Metric) (key : String) : m.toJson.get? key = Json.lookup key m.entries :=
  Json.get?_ofEntries m.keys_nodup key

theorem writtenAs_toJson (m : Metric) : m.WrittenAs m.toJson := by
  constructor <;>
    simp only [get?_toJson, entries_eq, lookup_append, lookup_cons, lookup_nil,
      lookup_optionalEntry]
  case metadata =>
    cases hreferences : m.metadata with
    | nil => simp [references?, hreferences, FieldWrittenAs]
    | cons r rest =>
        simpa [references?, hreferences] using fieldWrittenAs_map Reference.writtenAs_toJson (r :: rest)
  all_goals simp

end Metric

/-! ### Documents -/

namespace Definitions

theorem keys_nodup (d : Definitions) : (d.entries.map Prod.fst).Nodup := by
  have hall : ["types", "metrics"].Nodup := by decide
  exact hall

theorem get?_toJson (d : Definitions) (key : String) :
    d.toJson.get? key = Json.lookup key d.entries :=
  Json.get?_ofEntries d.keys_nodup key

theorem writtenAs_toJson (d : Definitions) : d.WrittenAs d.toJson where
  types := by
    rw [get?_toJson]
    exact fieldWrittenAs_map MetadataType.writtenAs_toJson d.types
  metrics := by
    rw [get?_toJson]
    exact fieldWrittenAs_map Metric.writtenAs_toJson d.metrics

/-- What is written for definitions is read back as the definitions. -/
theorem decode_toJson (d : Definitions) : decode d.toJson = .ok d :=
  decode_of_writtenAs d.writtenAs_toJson

end Definitions

end TelemetryTypes
