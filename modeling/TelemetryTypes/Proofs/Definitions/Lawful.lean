import TelemetryTypes.Definitions.Merge
import TelemetryTypes.Generation
import TelemetryTypes.Proofs.Definitions.Merging
import TelemetryTypes.Proofs.Definitions.Reading
import TelemetryTypes.Proofs.Text.Casing

/-!
# Lawful definitions

What the schema asks of the names, the values and the units of a document holds of every record read
from it. A merge has no records of its own, and the bundled definitions obey the schema as well, so
it holds of all that a run resolves. A type name is an identifier and so is its Pascal case; a
metric name may start with a digit and is only known to be an identifier when its Pascal case is
one.
-/

namespace TelemetryTypes

open Definitions (IsTypeName IsMetricName)

structure MetadataType.Lawful (t : MetadataType) : Prop where
  name : IsTypeName t.name
  allowedValues : ∀ values ∈ t.allowedValues, values ≠ [] ∧ values.Nodup

structure Metric.Lawful (m : Metric) : Prop where
  name : IsMetricName m.name
  unit : ∀ unit ∈ m.unit, unit ∈ Definitions.units

structure Definitions.Lawful (d : Definitions) : Prop where
  types : ∀ t ∈ d.types, t.Lawful
  metrics : ∀ m ∈ d.metrics, m.Lawful

namespace Definitions

/-! ### Records of a document -/

theorem IsMetadataType.lawful {t : MetadataType} {value : Json} (h : IsMetadataType value)
    (ht : t.WrittenAs value) : t.Lawful := by
  constructor
  · simpa [typeEntry_iff] using h.1.entry_of_get? ht.name
  · intro values hvalues
    have hfield := ht.allowedValues
    rw [Option.mem_def.mp hvalues, Option.map_some] at hfield
    have hinj : Function.Injective Json.string := fun _ _ => Json.string.inj
    simpa [typeEntry_iff, (List.map_injective_iff.mpr hinj).eq_iff] using h.1.entry_of_get? hfield

theorem IsMetric.lawful {m : Metric} {value : Json} (h : IsMetric value) (hm : m.WrittenAs value) :
    m.Lawful := by
  constructor
  · simpa [metricEntry_iff] using IsRecord.entry_of_get? h hm.name
  · intro unit hunit
    have hfield := hm.unit
    rw [Option.mem_def.mp hunit, Option.map_some] at hfield
    simpa [metricEntry_iff] using IsRecord.entry_of_get? h hfield

/-- The items of a field are written for the items of a list of the format. -/
theorem forall_of_fieldWrittenAs {α : Type} {Form : Json → Prop} {Item : α → Json → Prop}
    {P : α → Prop} {items : List α} {field : Option Json} (hitems : FieldWrittenAs Item items field)
    (hform : ∀ value ∈ field, IsListOf Form value)
    (hlawful : ∀ a value, Form value → Item a value → P a) : ∀ a ∈ items, P a := by
  cases field with
  | none =>
      obtain rfl : items = [] := hitems
      exact List.forall_mem_nil _
  | some value =>
      obtain ⟨values, rfl, hall⟩ := hitems
      obtain ⟨_, heq, hvalues⟩ := hform _ rfl
      obtain rfl := Json.array.inj heq
      intro a ha
      obtain ⟨i, hi, rfl⟩ := List.getElem_of_mem ha
      have hlength := hall.length_eq
      exact hlawful _ _ (hvalues _ (List.getElem_mem (hlength ▸ hi))) (hall.get hi (hlength ▸ hi))

theorem IsDocument.lawful {d : Definitions} {value : Json} (h : IsDocument value)
    (hd : d.WrittenAs value) : d.Lawful where
  types := forall_of_fieldWrittenAs hd.types
    (fun field hfield => by simpa [documentEntry_iff] using IsRecord.entry_of_get? h hfield)
    fun _ _ => IsMetadataType.lawful
  metrics := forall_of_fieldWrittenAs hd.metrics
    (fun field hfield => by simpa [documentEntry_iff] using IsRecord.entry_of_get? h hfield)
    fun _ _ => IsMetric.lawful

theorem lawful_of_ofJson {value : Json} {source : String} {d : Definitions}
    (h : ofJson value source = .ok d) : d.Lawful := by
  obtain ⟨hdocument, hd⟩ := isDocument_of_ofJson h
  exact hdocument.lawful hd

/-! ### The definitions of a run -/

instance (name : String) : Decidable (IsTypeName name) :=
  decidable_of_iff (typeNamePattern.holds name.toList = true)
    ((Schema.Pattern.holds_iff _ _).trans (typeNamePattern_matches_iff name))

theorem lawful_bundled : bundled.Lawful where
  types t ht :=
    ⟨(by decide : ∀ t ∈ bundledTypes, IsTypeName t.name) t ht,
      (by decide : ∀ t ∈ bundledTypes, ∀ values ∈ t.allowedValues, values ≠ [] ∧ values.Nodup) t ht⟩
  metrics := List.forall_mem_nil _

theorem lawful_merge {documents : List Definitions} (h : ∀ d ∈ documents, d.Lawful) :
    (merge documents).Lawful := by
  constructor
  · intro t ht
    obtain ⟨d, hd, ht⟩ := exists_of_mem_types_merge ht
    exact (h d hd).types t ht
  · intro m hm
    obtain ⟨d, hd, hm⟩ := exists_of_mem_metrics_merge hm
    exact (h d hd).metrics m hm

theorem mem_or_eq_bundled {documents : List Definitions} {c : Config}
    {d : Definitions} (hd : d ∈ withBundled documents c) : d ∈ documents ∨ d = bundled := by
  unfold withBundled at hd
  split at hd
  · simpa using hd
  · exact .inl hd

theorem lawful_merge_withBundled {documents : List Definitions} (c : Config)
    (h : ∀ d ∈ documents, d.Lawful) : (merge (withBundled documents c)).Lawful := by
  refine lawful_merge fun d hd => ?_
  rcases mem_or_eq_bundled hd with hdocument | rfl
  · exact h d hdocument
  · exact lawful_bundled

/-! ### Names -/

open Text

theorem IsTypeName.isIdentifier {name : String} (h : IsTypeName name) :
    Text.isIdentifier name = true := by
  obtain ⟨first, rest, hname, hfirst, hrest⟩ := h
  refine isIdentifier_of_toList hname ?_ fun x hx => isIdentifierPart_of_isAlphanum (hrest x hx)
  simp [isIdentifierStart, hfirst]

/-- The first letter of a type name starts its Pascal case, in upper case. -/
theorem IsTypeName.isIdentifier_pascalCase {name : String} (h : IsTypeName name) :
    Text.isIdentifier (pascalCase name) = true := by
  obtain ⟨first, rest, hname, hfirst, hrest⟩ := h
  have hpascal : (pascalCase name).toList = first.toUpper :: pascalChars false rest := by
    rw [pascalCase, String.toList_ofList, hname,
      pascalChars_of_isAlphanum (by simp [Char.isAlphanum, hfirst])]
  refine isIdentifier_of_toList hpascal ?_ fun x hx =>
    isIdentifierPart_of_isAlphanum (isAlphanum_of_mem_pascalChars hx)
  rw [isIdentifierStart, isAlpha_toUpper, hfirst, Bool.true_or, Bool.true_or]

theorem IsMetricName.isIdentifierPart {name : String} (h : IsMetricName name) :
    ∀ x ∈ name.toList, Text.isIdentifierPart x = true := by
  obtain ⟨front, back, hname, -, hfront, -, hback⟩ := h
  rw [hname]
  simp only [List.forall_mem_append, List.forall_mem_cons]
  refine ⟨fun x hx => isIdentifierPart_of_isAlphanum (hfront x hx), by decide, fun x hx => ?_⟩
  rcases hback x hx with halphanum | rfl
  · exact isIdentifierPart_of_isAlphanum halphanum
  · decide

/-- A metric name starts with a letter or a digit, and Pascal case keeps a digit where it is. -/
theorem IsMetricName.isIdentifier {name : String} (h : IsMetricName name)
    (hpascal : Text.isIdentifier (pascalCase name) = true) : Text.isIdentifier name = true := by
  have hparts := h.isIdentifierPart
  obtain ⟨front, back, hname, hne, hfront, -⟩ := h
  obtain ⟨first, rest, rfl⟩ := List.exists_cons_of_ne_nil hne
  have hfirst : first.isAlphanum = true := hfront first List.mem_cons_self
  rw [List.cons_append] at hname
  rw [Text.isIdentifier, pascalCase, String.toList_ofList, hname,
    pascalChars_of_isAlphanum hfirst, isIdentifierChars, Bool.and_eq_true] at hpascal
  have hletter := isAlpha_of_isIdentifierStart (isAlphanum_toUpper hfirst) hpascal.1
  rw [isAlpha_toUpper] at hletter
  rw [hname, List.forall_mem_cons] at hparts
  exact isIdentifier_of_toList hname (by simp [isIdentifierStart, hletter]) hparts.2

theorem IsMetricName.underscore_mem {name : String} (h : IsMetricName name) :
    '_' ∈ name.toList := by
  obtain ⟨front, back, hname, -⟩ := h
  simp [hname]

end Definitions

end TelemetryTypes
