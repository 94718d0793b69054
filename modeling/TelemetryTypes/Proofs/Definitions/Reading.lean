import TelemetryTypes.Proofs.Definitions.Format

/-!
# What is read from a document

`WrittenAs` says which value is written for a record, field by field. A decoder gives the record
that a value is written for, and every value of the format is written for a record, so a document
that the schema lets pass is never refused by the decoder.
-/

namespace TelemetryTypes

open Json (Decoder lookup)

/-! ### Records and the values they are written as -/

/-- The items of a list are written one by one. -/
def ListWrittenAs {α : Type} (Item : α → Json → Prop) (items : List α) (value : Json) : Prop :=
  ∃ values, value = .array values ∧ List.Forall₂ Item items values

/-- A field that is left out stands for the empty list. -/
def FieldWrittenAs {α : Type} (Item : α → Json → Prop) (items : List α) : Option Json → Prop
  | none => items = []
  | some value => ListWrittenAs Item items value

structure MetadataType.WrittenAs (t : MetadataType) (value : Json) : Prop where
  name : value.get? "name" = some (.string t.name)
  description : value.get? "description" = t.description.map .string
  allowedValues :
    value.get? "allowedValues" = t.allowedValues.map fun values => .array (values.map .string)
  kind : value.get? "type" = t.kind.map .string

structure Reference.WrittenAs (r : Reference) (value : Json) : Prop where
  typeName : value.get? "type" = some (.string r.typeName)
  required : value.get? "required" = r.required.map .bool
  description : value.get? "description" = r.description.map .string

structure Metric.WrittenAs (m : Metric) (value : Json) : Prop where
  name : value.get? "name" = some (.string m.name)
  description : value.get? "description" = some (.string m.description)
  unit : value.get? "unit" = m.unit.map .string
  passive : value.get? "passive" = m.passive.map .bool
  trackPerformance : value.get? "trackPerformance" = m.trackPerformance.map .bool
  metadata : FieldWrittenAs Reference.WrittenAs m.metadata (value.get? "metadata")

structure Definitions.WrittenAs (d : Definitions) (value : Json) : Prop where
  types : FieldWrittenAs MetadataType.WrittenAs d.types (value.get? "types")
  metrics : FieldWrittenAs Metric.WrittenAs d.metrics (value.get? "metrics")

/-! ### Decoders give what is written -/

/-- A decoder that gives back what an encoder wrote, which is never `null`. -/
def Json.Decoder.Inverts {α : Type} (item : Decoder α) (encode : α → Json) : Prop :=
  ∀ a, item (encode a) = .ok a ∧ encode a ≠ .null

/-- A decoder that gives what a value is written for. -/
def Json.Decoder.Reads {α : Type} (item : Decoder α) (Item : α → Json → Prop) : Prop :=
  ∀ a value, Item a value → item value = .ok a

theorem string_inverts : Decoder.Inverts Decoder.string .string := fun _ => ⟨rfl, Json.noConfusion⟩

theorem boolean_inverts : Decoder.Inverts Decoder.boolean .bool := fun _ => ⟨rfl, Json.noConfusion⟩

section Decoders

variable {α : Type} {entries : List (String × Json)} {key : String} {item : Decoder α}
  {encode : α → Json} {Item : α → Json → Prop}

theorem list_of_writtenAs {items : List α} {value : Json}
    (hitem : Decoder.Reads item Item) (h : ListWrittenAs Item items value) :
    Decoder.list item value = .ok items := by
  obtain ⟨values, rfl, hall⟩ := h
  rw [Decoder.list]
  induction hall with
  | nil => rfl
  | cons hfirst _ ih =>
      rw [List.mapM_cons, hitem _ _ hfirst, ih]
      rfl

theorem strings_inverts :
    Decoder.Inverts (Decoder.list Decoder.string) fun values => .array (values.map .string) := by
  intro values
  have hitem : Decoder.Reads Decoder.string fun s value => value = .string s := by
    rintro s _ rfl
    rfl
  exact ⟨list_of_writtenAs hitem ⟨_, rfl, by simp⟩, Json.noConfusion⟩

theorem optional_eq (hitem : Decoder.Inverts item encode) (a : α) :
    Decoder.optional item (encode a) = .ok (some a) := by
  obtain ⟨hdecode, hnull⟩ := hitem a
  rw [Decoder.optional, hdecode]
  · rfl
  · exact hnull

theorem fieldD_optional_eq {o : Option α} (hitem : Decoder.Inverts item encode)
    (h : lookup key entries = o.map encode) :
    Decoder.fieldD none (Decoder.optional item) key entries = .ok o := by
  rw [Decoder.fieldD, h]
  cases o with
  | none => rfl
  | some a => exact optional_eq hitem a

theorem field?_eq {a : α} (hitem : Decoder.Inverts item encode)
    (h : lookup key entries = some (encode a)) :
    Decoder.field? item key entries = .ok (some a) := by
  rw [Decoder.field?, h]
  change some <$> item (encode a) = _
  rw [(hitem a).1]
  rfl

theorem fieldD_list_eq {items : List α} (hitem : Decoder.Reads item Item)
    (h : FieldWrittenAs Item items (lookup key entries)) :
    Decoder.fieldD [] (Decoder.list item) key entries = .ok items := by
  rw [Decoder.fieldD]
  cases hlookup : lookup key entries with
  | none =>
      rw [hlookup] at h
      rw [show items = [] from h]
  | some value =>
      rw [hlookup] at h
      exact list_of_writtenAs hitem h

end Decoders

theorem MetadataType.decode_reads : Decoder.Reads MetadataType.decode MetadataType.WrittenAs := by
  intro t value h
  cases value with
  | object entries =>
      rw [decode, fieldD_optional_eq strings_inverts h.allowedValues,
        fieldD_optional_eq string_inverts h.description, field?_eq string_inverts h.name,
        fieldD_optional_eq string_inverts h.kind]
      rfl
  | _ => cases h.name

theorem Reference.decode_reads : Decoder.Reads Reference.decode Reference.WrittenAs := by
  intro r value h
  cases value with
  | object entries =>
      rw [decode, fieldD_optional_eq string_inverts h.description,
        fieldD_optional_eq boolean_inverts h.required, field?_eq string_inverts h.typeName]
      rfl
  | _ => cases h.typeName

theorem Metric.decode_reads : Decoder.Reads Metric.decode Metric.WrittenAs := by
  intro m value h
  cases value with
  | object entries =>
      rw [decode, field?_eq string_inverts h.description,
        fieldD_list_eq Reference.decode_reads h.metadata, field?_eq string_inverts h.name,
        fieldD_optional_eq boolean_inverts h.passive,
        fieldD_optional_eq boolean_inverts h.trackPerformance,
        fieldD_optional_eq string_inverts h.unit]
      rfl
  | _ => cases h.name

/-- A document has no key that it must have, so that it is an object is asked for. -/
theorem Definitions.decode_of_writtenAs {d : Definitions} {entries : List (String × Json)}
    (h : d.WrittenAs (.object entries)) : Definitions.decode (.object entries) = .ok d := by
  rw [decode, fieldD_list_eq Metric.decode_reads h.metrics,
    fieldD_list_eq MetadataType.decode_reads h.types]
  rfl

/-! ### Values of the format are written for a record -/

namespace Definitions

section Fields

variable {Entry : String × Json → Prop} {required : List String} {value : Json}

theorem IsRecord.entry_of_get? (h : IsRecord Entry required value) {key : String} {field : Json}
    (hfield : value.get? key = some field) : Entry (key, field) := by
  obtain ⟨entries, rfl, hentries, -⟩ := h
  exact hentries _ (Json.mem_of_lookup hfield)

theorem IsRecord.exists_of_required (h : IsRecord Entry required value) {α : Type} {key : String}
    {encode : α → Json} (hkey : key ∈ required)
    (hentry : ∀ field, Entry (key, field) → ∃ a, field = encode a) :
    ∃ a, value.get? key = some (encode a) := by
  obtain ⟨entries, rfl, hentries, hrequired⟩ := h
  obtain ⟨field, hfield⟩ := Option.ne_none_iff_exists'.mp
    (mt Json.lookup_eq_none_iff.mp (not_not_intro (hrequired key hkey)))
  obtain ⟨a, rfl⟩ := hentry field (hentries _ (Json.mem_of_lookup hfield))
  exact ⟨a, hfield⟩

theorem IsRecord.exists_option (h : IsRecord Entry required value) {α : Type} {key : String}
    {encode : α → Json} (hentry : ∀ field, Entry (key, field) → ∃ a, field = encode a) :
    ∃ o : Option α, value.get? key = o.map encode := by
  cases hfield : value.get? key with
  | none => exact ⟨none, rfl⟩
  | some field =>
      obtain ⟨a, rfl⟩ := hentry field (h.entry_of_get? hfield)
      exact ⟨some a, rfl⟩

theorem exists_forall₂ {α : Type} {Item : α → Json → Prop} {values : List Json}
    (h : ∀ value ∈ values, ∃ a, Item a value) : ∃ items, List.Forall₂ Item items values := by
  induction values with
  | nil => exact ⟨[], .nil⟩
  | cons value rest ih =>
      rw [List.forall_mem_cons] at h
      obtain ⟨⟨a, ha⟩, hrest⟩ := h
      obtain ⟨items, hitems⟩ := ih hrest
      exact ⟨a :: items, .cons ha hitems⟩

theorem IsRecord.exists_list (h : IsRecord Entry required value) {α : Type} {key : String}
    {Form : Json → Prop} {Item : α → Json → Prop}
    (hentry : ∀ field, Entry (key, field) → IsListOf Form field)
    (hitem : ∀ item, Form item → ∃ a, Item a item) :
    ∃ items : List α, FieldWrittenAs Item items (value.get? key) := by
  cases hfield : value.get? key with
  | none => exact ⟨[], rfl⟩
  | some field =>
      obtain ⟨values, rfl, hvalues⟩ := hentry field (h.entry_of_get? hfield)
      obtain ⟨items, hitems⟩ := exists_forall₂ fun item hmem => hitem item (hvalues item hmem)
      exact ⟨items, values, rfl, hitems⟩

end Fields

theorem IsMetadataType.exists_writtenAs {value : Json} (h : IsMetadataType value) :
    ∃ t : MetadataType, t.WrittenAs value := by
  have hrecord := h.1
  obtain ⟨name, hname⟩ : ∃ s, value.get? "name" = some (.string s) :=
    hrecord.exists_of_required List.mem_cons_self fun field hfield => by
      obtain ⟨s, rfl, -⟩ := by simpa [typeEntry_iff] using hfield
      exact ⟨s, rfl⟩
  obtain ⟨description, hdescription⟩ :
      ∃ o : Option String, value.get? "description" = o.map .string :=
    hrecord.exists_option fun field hfield => by simpa [typeEntry_iff] using hfield
  obtain ⟨values, hvalues⟩ : ∃ o : Option (List String),
      value.get? "allowedValues" = o.map fun values => .array (values.map .string) :=
    hrecord.exists_option fun field hfield => by
      obtain ⟨values, rfl, -⟩ := by simpa [typeEntry_iff] using hfield
      exact ⟨values, rfl⟩
  obtain ⟨kind, hkind⟩ : ∃ o : Option String, value.get? "type" = o.map .string :=
    hrecord.exists_option fun field hfield => by simpa [typeEntry_iff] using hfield
  exact ⟨⟨name, description, values, kind⟩, hname, hdescription, hvalues, hkind⟩

theorem IsReference.exists_writtenAs {value : Json} (h : IsReference value) :
    ∃ r : Reference, r.WrittenAs value := by
  obtain ⟨typeName, htypeName⟩ : ∃ s, value.get? "type" = some (.string s) :=
    IsRecord.exists_of_required h List.mem_cons_self fun field hfield => by
      obtain ⟨s, rfl, -⟩ := by simpa [referenceEntry_iff] using hfield
      exact ⟨s, rfl⟩
  obtain ⟨required, hrequired⟩ : ∃ o : Option Bool, value.get? "required" = o.map .bool :=
    IsRecord.exists_option h fun field hfield => by simpa [referenceEntry_iff] using hfield
  obtain ⟨description, hdescription⟩ :
      ∃ o : Option String, value.get? "description" = o.map .string :=
    IsRecord.exists_option h fun field hfield => by simpa [referenceEntry_iff] using hfield
  exact ⟨⟨typeName, required, description⟩, htypeName, hrequired, hdescription⟩

theorem IsMetric.exists_writtenAs {value : Json} (h : IsMetric value) :
    ∃ m : Metric, m.WrittenAs value := by
  obtain ⟨name, hname⟩ : ∃ s, value.get? "name" = some (.string s) :=
    IsRecord.exists_of_required h List.mem_cons_self fun field hfield => by
      obtain ⟨s, rfl, -⟩ := by simpa [metricEntry_iff] using hfield
      exact ⟨s, rfl⟩
  obtain ⟨description, hdescription⟩ : ∃ s, value.get? "description" = some (.string s) :=
    IsRecord.exists_of_required h (List.mem_cons_of_mem _ List.mem_cons_self)
      fun field hfield => by simpa [metricEntry_iff] using hfield
  obtain ⟨unit, hunit⟩ : ∃ o : Option String, value.get? "unit" = o.map .string :=
    IsRecord.exists_option h fun field hfield => by
      obtain ⟨s, -, rfl⟩ := by simpa [metricEntry_iff] using hfield
      exact ⟨s, rfl⟩
  obtain ⟨passive, hpassive⟩ : ∃ o : Option Bool, value.get? "passive" = o.map .bool :=
    IsRecord.exists_option h fun field hfield => by simpa [metricEntry_iff] using hfield
  obtain ⟨performance, hperformance⟩ :
      ∃ o : Option Bool, value.get? "trackPerformance" = o.map .bool :=
    IsRecord.exists_option h fun field hfield => by simpa [metricEntry_iff] using hfield
  obtain ⟨references, hreferences⟩ : ∃ references,
      FieldWrittenAs Reference.WrittenAs references (value.get? "metadata") :=
    IsRecord.exists_list h (fun field hfield => by simpa [metricEntry_iff] using hfield)
      fun _ => IsReference.exists_writtenAs
  exact ⟨⟨name, description, unit, passive, performance, references⟩, hname, hdescription, hunit,
    hpassive, hperformance, hreferences⟩

theorem IsDocument.exists_writtenAs {value : Json} (h : IsDocument value) :
    ∃ d : Definitions, d.WrittenAs value := by
  obtain ⟨types, htypes⟩ : ∃ types,
      FieldWrittenAs MetadataType.WrittenAs types (value.get? "types") :=
    IsRecord.exists_list h (fun field hfield => by simpa [documentEntry_iff] using hfield)
      fun _ => IsMetadataType.exists_writtenAs
  obtain ⟨metrics, hmetrics⟩ : ∃ metrics,
      FieldWrittenAs Metric.WrittenAs metrics (value.get? "metrics") :=
    IsRecord.exists_list h (fun field hfield => by simpa [documentEntry_iff] using hfield)
      fun _ => IsMetric.exists_writtenAs
  exact ⟨⟨types, metrics⟩, htypes, hmetrics⟩

/-! ### Taking a document -/

theorem decode_of_isDocument {value : Json} {d : Definitions} (h : IsDocument value)
    (hd : d.WrittenAs value) : decode value = .ok d := by
  obtain ⟨entries, rfl, -⟩ := h
  exact decode_of_writtenAs hd

theorem ofJson_of_isDocument {value : Json} {d : Definitions} (source : String)
    (h : IsDocument value) (hd : d.WrittenAs value) : ofJson value source = .ok d := by
  rw [ofJson, (violations_eq_nil_iff_isDocument value).mpr h, decode_of_isDocument h hd]

theorem ofJson_of_not_isDocument {value : Json} (source : String) (h : ¬IsDocument value) :
    ofJson value source = .error (.rejected source (violations value)) := by
  have hviolations : violations value ≠ [] := mt (violations_eq_nil_iff_isDocument value).mp h
  rw [ofJson]
  split
  · contradiction
  · rfl

/-- A document that is accepted is of the format, and what is read from it is what it was written
for. -/
theorem isDocument_of_ofJson {value : Json} {source : String} {d : Definitions}
    (h : ofJson value source = .ok d) : IsDocument value ∧ d.WrittenAs value := by
  by_cases hdocument : IsDocument value
  · obtain ⟨written, hwritten⟩ := hdocument.exists_writtenAs
    rw [ofJson_of_isDocument source hdocument hwritten] at h
    exact ⟨hdocument, Except.ok.inj h ▸ hwritten⟩
  · rw [ofJson_of_not_isDocument source hdocument] at h
    cases h

/-- Exactly the documents of the format are accepted, each as the definitions that it is written
for. Every other value is rejected with its violations, so none gets as far as a decoder that
refuses it. -/
theorem ofJson_eq_ok_iff (value : Json) (source : String) :
    (∀ d, ofJson value source = .ok d ↔ IsDocument value ∧ d.WrittenAs value)
      ∧ (IsDocument value → ∃ d, ofJson value source = .ok d)
      ∧ (¬IsDocument value →
          ∃ found, found ≠ [] ∧ ofJson value source = .error (.rejected source found)) := by
  refine ⟨fun d => ?_, fun h => ?_, fun h => ?_⟩
  · exact ⟨isDocument_of_ofJson, fun ⟨hdocument, hd⟩ => ofJson_of_isDocument source hdocument hd⟩
  · obtain ⟨d, hd⟩ := h.exists_writtenAs
    exact ⟨d, ofJson_of_isDocument source h hd⟩
  · exact ⟨violations value, mt (violations_eq_nil_iff_isDocument value).mp h,
      ofJson_of_not_isDocument source h⟩

end Definitions

end TelemetryTypes
