import TelemetryTypes.Config.Json
import TelemetryTypes.Proofs.Config.Consistency
import TelemetryTypes.Proofs.Definitions.Writing

/-!
# What is written for settings

All five settings are written and each is read back from its entry. Every entry is looked at before
any setting is read, so an object with a key that is no setting is refused whatever else it holds.
The last statement of this module is about all that a run is told, definitions and settings alike.
-/

namespace TelemetryTypes

namespace Config

open Json (Decoder lookup)

/-! ### The entries one by one -/

theorem checkEntry_of_not_mem {entry : String × Json} (hkey : entry.1 ∉ keys) :
    checkEntry entry = .error (.unknownField entry.1 keys) := by
  simp only [keys, List.mem_cons, List.not_mem_nil, or_false, not_or] at hkey
  unfold checkEntry
  split <;> simp_all

theorem forM_checkEntry_eq_ok_iff (entries : List (String × Json)) :
    entries.forM checkEntry = .ok () ↔ ∀ entry ∈ entries, checkEntry entry = .ok () := by
  induction entries with
  | nil => simp [List.forM, pure, Except.pure]
  | cons first rest ih => rw [List.forM, bind_eq_ok_iff, ih, List.forall_mem_cons]

/-- The settings that are read from an object have no other key beside them. -/
theorem mem_keys_of_decode {entries : List (String × Json)} {c : Config}
    (h : decode (.object entries) = .ok c) : ∀ key ∈ entries.map Prod.fst, key ∈ keys := by
  rw [decode, bind_eq_ok_iff, forM_checkEntry_eq_ok_iff] at h
  intro key hkey
  obtain ⟨entry, hentry, rfl⟩ := List.mem_map.mp hkey
  by_contra hunknown
  have hrefused := checkEntry_of_not_mem hunknown
  rw [h.1 entry hentry] at hrefused
  cases hrefused

/-! ### Reading back -/

def entries (c : Config) : List (String × Json) :=
  [("base_type_name", .string c.baseTypeName), ("client_class_name", .string c.clientClassName),
    ("common_metadata", stringsToJson c.commonMetadata),
    ("overridable_metadata", stringsToJson c.overridableMetadata),
    ("include_defaults", .bool c.includeDefaults)]

theorem toJson_eq (c : Config) : c.toJson = .ofEntries c.entries := rfl

theorem keys_nodup (c : Config) : (c.entries.map Prod.fst).Nodup := by
  have hall : keys.Nodup := by decide
  exact hall

theorem fieldD_eq {α : Type} {default a : α} {item : Decoder α} {encode : α → Json} {key : String}
    {entries : List (String × Json)} (hitem : Decoder.Inverts item encode)
    (h : lookup key entries = some (encode a)) :
    Decoder.fieldD default item key entries = .ok a := by
  rw [Decoder.fieldD, h]
  exact (hitem a).1

theorem checkEntry_eq_ok {c : Config} {entry : String × Json} (h : entry ∈ c.entries) :
    checkEntry entry = .ok () := by
  simp only [entries, List.mem_cons, List.not_mem_nil, or_false] at h
  have hstrings (values : List String) :
      discard (Decoder.list Decoder.string (stringsToJson values)) = .ok () := by
    rw [stringsToJson, (strings_inverts values).1]
    rfl
  rcases h with rfl | rfl | rfl | rfl | rfl
  · rfl
  · rfl
  · exact hstrings c.commonMetadata
  · exact hstrings c.overridableMetadata
  · rfl

/-- What is written for settings is read back as the settings. -/
theorem decode_toJson (c : Config) : decode c.toJson = .ok c := by
  obtain ⟨kept, hkept, hperm⟩ := Json.exists_ofEntries_eq c.keys_nodup
  have hchecked : kept.forM checkEntry = .ok () :=
    (forM_checkEntry_eq_ok_iff kept).mpr fun entry hentry =>
      checkEntry_eq_ok (hperm.mem_iff.mp hentry)
  have hlookup (key : String) (value : Json) (hmem : (key, value) ∈ c.entries) :
      lookup key kept = some value :=
    Json.lookup_of_mem ((hperm.map Prod.fst).nodup_iff.mpr c.keys_nodup) (hperm.mem_iff.mpr hmem)
  rw [toJson_eq, hkept, decode, hchecked,
    fieldD_eq string_inverts (hlookup _ (.string c.baseTypeName) (by simp [entries])),
    fieldD_eq string_inverts (hlookup _ (.string c.clientClassName) (by simp [entries])),
    fieldD_eq strings_inverts (hlookup _ _ (by simp [entries]; rfl)),
    fieldD_eq strings_inverts (hlookup _ _ (by simp [entries]; rfl)),
    fieldD_eq boolean_inverts (hlookup _ (.bool c.includeDefaults) (by simp [entries]))]
  rfl

end Config

/-- **Definitions and settings survive being written.** Whatever texts, options and lists they hold,
what is written for them is read back as they were, so no two are written alike; and an object with
a key that is none of the settings' is read as no settings. -/
theorem written_read_back :
    (∀ d : Definitions, Definitions.decode d.toJson = .ok d)
      ∧ Function.Injective Definitions.toJson
      ∧ (∀ c : Config, Config.decode c.toJson = .ok c)
      ∧ Function.Injective Config.toJson
      ∧ ∀ entries, (∃ key ∈ entries.map Prod.fst, key ∉ Config.keys) →
          ∃ e, Config.decode (.object entries) = .error e := by
  refine ⟨Definitions.decode_toJson, fun d d' heq => ?_, Config.decode_toJson, fun c c' heq => ?_,
    ?_⟩
  · have hread := d.decode_toJson
    rw [heq, d'.decode_toJson] at hread
    exact (Except.ok.inj hread).symm
  · have hread := c.decode_toJson
    rw [heq, c'.decode_toJson] at hread
    exact (Except.ok.inj hread).symm
  · rintro entries ⟨key, hkey, hunknown⟩
    cases hdecode : Config.decode (.object entries) with
    | error e => exact ⟨e, rfl⟩
    | ok c => exact absurd (Config.mem_keys_of_decode hdecode key hkey) hunknown

end TelemetryTypes
