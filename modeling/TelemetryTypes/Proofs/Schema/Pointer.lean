import Mathlib.Data.List.Nodup
import TelemetryTypes.Proofs.Schema.Report
import TelemetryTypes.Proofs.Text.Pieces

/-!
# Pointers

A violation gives its two places as pointers: the segments that lead there, each behind a slash,
with the two characters escaped that would be misread. Reading a pointer gives the segments back.
Followed from the document they end at the value of the place that the violation was reported for,
followed from the schema at the rule that reported it. Whether a segment is a key or an index is not
written; the value that it is applied to decides.
-/

namespace TelemetryTypes

namespace Schema

/-! ### Reading a pointer -/

def unescapePointer : List Char → List Char
  | '~' :: '0' :: rest => '~' :: unescapePointer rest
  | '~' :: '1' :: rest => '/' :: unescapePointer rest
  | c :: rest => c :: unescapePointer rest
  | [] => []

def unescapeSegment (segment : List Char) : String := String.ofList (unescapePointer segment)

/-- The segments of a pointer, which is empty or starts with a slash. -/
def segments? (s : String) : Option (List String) :=
  match s.toList.splitOn '/' with
  | [] :: segments => some (segments.map unescapeSegment)
  | _ => none

theorem unescapePointer_of_not_mem {s : List Char} (h : '~' ∉ s) : unescapePointer s = s := by
  induction s with
  | nil => rfl
  | cons c rest ih =>
      rw [List.mem_cons, not_or] at h
      rw [unescapePointer, ih h.2]
      · rintro _ rfl
        exact absurd rfl h.1
      · rintro _ rfl
        exact absurd rfl h.1

theorem unescapePointer_escapePointer (s : List Char) : unescapePointer (escapePointer s) = s := by
  induction s with
  | nil => rfl
  | cons c rest ih =>
      rw [escapePointer, List.flatMap_cons, ← escapePointer]
      split_ifs with htilde hslash
      · subst htilde
        exact congrArg ('~' :: ·) ih
      · subst hslash
        exact congrArg ('/' :: ·) ih
      · rw [List.singleton_append, unescapePointer, ih]
        · rintro _ rfl
          exact absurd rfl htilde
        · rintro _ rfl
          exact absurd rfl htilde

theorem slash_not_mem_escapePointer (s : List Char) : '/' ∉ escapePointer s := by
  rw [escapePointer, List.mem_flatMap]
  rintro ⟨c, -, hmem⟩
  split_ifs at hmem with htilde hslash
  · simp at hmem
  · simp at hmem
  · exact hslash (List.mem_singleton.mp hmem).symm

theorem toList_pointer (segments : List String) :
    (pointer segments).toList = ['/'].intercalate ([] :: segments.map String.toList) := by
  rw [pointer, String.toList_intercalate, Text.intercalate_cons]
  cases segments with
  | nil => rfl
  | cons first rest =>
      rw [List.map_cons, List.map_cons, String.toList_empty, Text.intercalate_cons]
      simp [List.flatMap_map, Function.comp_def]

/-- What is written with no slash in any segment is read back segment by segment. -/
theorem segments?_pointer {segments : List String}
    (h : ∀ segment ∈ segments, '/' ∉ segment.toList) :
    segments? (pointer segments) = some (segments.map fun s => unescapeSegment s.toList) := by
  have hsplit : (pointer segments).toList.splitOn '/' = [] :: segments.map String.toList := by
    rw [toList_pointer, List.splitOn_intercalate]
    · simpa using h
    · exact List.cons_ne_nil _ _
  rw [segments?, hsplit]
  simp only [List.map_map, Function.comp_def]

theorem segments?_path {path : List String} (h : ∀ segment ∈ path, isPlainSegment segment = true) :
    segments? (pointer path) = some path := by
  have hplain : ∀ segment ∈ path, '/' ∉ segment.toList ∧ '~' ∉ segment.toList := by
    intro segment hsegment
    have hall := h segment hsegment
    simp only [isPlainSegment, List.all_eq_true, Bool.and_eq_true, bne_iff_ne] at hall
    exact ⟨fun hmem => (hall _ hmem).1 rfl, fun hmem => (hall _ hmem).2 rfl⟩
  rw [segments?_pointer fun segment hsegment => (hplain segment hsegment).1]
  refine congrArg some ((List.map_congr_left fun segment hsegment => ?_).trans path.map_id)
  rw [unescapeSegment, unescapePointer_of_not_mem (hplain segment hsegment).2, String.ofList_toList]
  rfl

/-- A step as it stands in a pointer that has been read. -/
def Step.segment : Step → String
  | key name => name
  | index i => toString i

theorem unescape_text (step : Step) : unescapeSegment step.text.toList = step.segment := by
  cases step with
  | key name => simp [Step.text, Step.segment, unescapeSegment, unescapePointer_escapePointer]
  | index i =>
      have hdigits : '~' ∉ Nat.toDigits 10 i := fun hmem =>
        absurd (Nat.isDigit_of_mem_toDigits (by decide) (by decide) hmem) (by decide)
      rw [Step.text, Step.segment, Nat.toString_eq_ofList_toDigits, unescapeSegment,
        String.toList_ofList, unescapePointer_of_not_mem hdigits]

theorem slash_not_mem_text (step : Step) : '/' ∉ step.text.toList := by
  cases step with
  | key name =>
      rw [Step.text, String.toList_ofList]
      exact slash_not_mem_escapePointer _
  | index i =>
      rw [Step.text, Nat.toString_eq_ofList_toDigits, String.toList_ofList]
      exact fun hmem =>
        absurd (Nat.isDigit_of_mem_toDigits (by decide) (by decide) hmem) (by decide)

theorem segments?_location (location : List Step) :
    segments? (pointer (location.map Step.text)) = some (location.map Step.segment) := by
  rw [segments?_pointer (List.forall_mem_map.mpr fun step _ => slash_not_mem_text step),
    List.map_map]
  exact congrArg some (List.map_congr_left fun step _ => unescape_text step)

end Schema

/-! ### Following a pointer through a value -/

namespace Json

open Schema (Step segments?)

/-- The part of a value that a step leads to. -/
def part? : Step → Json → Option Json
  | .key name, value => value.get? name
  | .index i, .array items => items[i]?
  | .index _, _ => none

def at? : List Step → Json → Option Json
  | [], value => some value
  | step :: rest, value => (value.part? step).bind (at? rest)

/-- The part that a segment names: a property, or the item whose index it writes. -/
def named? (segment : String) : Json → Option Json
  | .object entries => lookup segment entries
  | .array items => (items.zipIdx.find? fun item => toString item.2 == segment).map Prod.fst
  | _ => none

def follow? : List String → Json → Option Json
  | [], value => some value
  | segment :: rest, value => (value.named? segment).bind (follow? rest)

/-- The value that a pointer leads to. -/
def resolve? (value : Json) (pointer : String) : Option Json :=
  (segments? pointer).bind fun segments => value.follow? segments

theorem Canonical.part {value x : Json} (h : value.Canonical) {step : Step}
    (hx : value.part? step = some x) : x.Canonical := by
  cases step with
  | key name =>
      cases value with
      | object entries => exact h.entry (mem_of_lookup hx)
      | _ => cases hx
  | index i =>
      cases value with
      | array items => exact h.item (List.mem_of_getElem? hx)
      | _ => cases hx

theorem at?_append (front back : List Step) (value : Json) :
    value.at? (front ++ back) = (value.at? front).bind (at? back) := by
  induction front generalizing value with
  | nil => rfl
  | cons step rest ih =>
      rw [List.cons_append, at?, at?, Option.bind_assoc]
      exact Option.bind_congr fun x _ => ih x

theorem toString_index_injective {i j : Nat} (h : toString i = toString j) : i = j := by
  rw [Nat.toString_eq_ofList_toDigits, Nat.toString_eq_ofList_toDigits, String.ofList_inj] at h
  calc i = Nat.ofDigitChars 10 (Nat.toDigits 10 i) 0 := Nat.ofDigitChars_ten_toDigits.symm
    _ = Nat.ofDigitChars 10 (Nat.toDigits 10 j) 0 := by rw [h]
    _ = j := Nat.ofDigitChars_ten_toDigits

theorem named?_of_part? {step : Step} {value x : Json} (h : value.part? step = some x) :
    value.named? step.segment = some x := by
  cases step with
  | key name =>
      cases value with
      | object entries => exact h
      | _ => cases h
  | index i =>
      cases value with
      | array items =>
          have hmem : (x, i) ∈ items.zipIdx := List.mem_zipIdx_iff_getElem?.mpr h
          have hnodup : (items.zipIdx.map fun item => toString item.2).Nodup := by
            rw [show (fun item : Json × Nat => toString item.2) = toString ∘ Prod.snd from rfl,
              ← List.map_map, List.zipIdx_map_snd]
            exact List.Nodup.map (fun _ _ => toString_index_injective) List.nodup_range'
          rw [named?, Step.segment, find?_of_mem_of_nodup (fun item => toString item.2) hnodup hmem,
            Option.map_some]
      | _ => cases h

theorem follow?_of_at? {location : List Step} {value x : Json} (h : value.at? location = some x) :
    value.follow? (location.map Step.segment) = some x := by
  induction location generalizing value with
  | nil => exact h
  | cons step rest ih =>
      obtain ⟨part, hpart, hrest⟩ := Option.bind_eq_some_iff.mp h
      rw [List.map_cons, follow?, named?_of_part? hpart]
      exact ih hrest

/-- The pointer to a part of a value leads to that part. -/
theorem resolve?_of_at? {location : List Step} {value x : Json} (h : value.at? location = some x) :
    value.resolve? (Schema.pointer (location.map Step.text)) = some x := by
  rw [resolve?, Schema.segments?_location]
  exact follow?_of_at? h

/-- Within one value a segment stands for one step. -/
theorem step_eq_of_segment_eq {value x y : Json} {a b : Step} (ha : value.part? a = some x)
    (hb : value.part? b = some y) (h : a.segment = b.segment) : a = b := by
  cases value with
  | object entries =>
      cases a with
      | key name =>
          cases b with
          | key other => exact congrArg Step.key h
          | index _ => cases hb
      | index _ => cases ha
  | array items =>
      cases a with
      | key _ => cases ha
      | index i =>
          cases b with
          | key _ => cases hb
          | index j => exact congrArg Step.index (toString_index_injective h)
  | _ => cases a <;> cases ha

theorem location_eq_of_segments_eq {value x y : Json} {a b : List Step}
    (ha : value.at? a = some x) (hb : value.at? b = some y)
    (h : a.map Step.segment = b.map Step.segment) : a = b := by
  induction a generalizing b value with
  | nil => exact (List.map_eq_nil_iff.mp h.symm).symm
  | cons step rest ih =>
      cases b with
      | nil => cases h
      | cons other more =>
          obtain ⟨hsegment, hrest⟩ := List.cons.inj h
          obtain ⟨part, hpart, ha⟩ := Option.bind_eq_some_iff.mp ha
          obtain ⟨part', hpart', hb⟩ := Option.bind_eq_some_iff.mp hb
          obtain rfl := step_eq_of_segment_eq hpart hpart' hsegment
          obtain rfl := Option.some.inj (hpart.symm.trans hpart')
          rw [ih ha hb hrest]

end Json

/-! ### Following a path through a schema -/

namespace Schema

def rule? (keyword : String) (schema : List Rule) : Option Rule :=
  schema.find? (·.keyword == keyword)

/-- The schema that a path leads to from another one. -/
def follow? : List String → List Rule → Option (List Rule)
  | [], schema => some schema
  | "properties" :: name :: rest, schema =>
    match rule? "additionalProperties" schema with
    | some (.properties known) =>
      (known.find? (·.1 == name)).bind fun property => follow? rest property.2
    | _ => none
  | "items" :: rest, schema =>
    match rule? "items" schema with
    | some (.items inner) => follow? rest inner
    | _ => none
  | "$ref" :: rest, schema =>
    match rule? "$ref" schema with
    | some (.reference inner) => follow? rest inner
    | _ => none
  | _, _ => none

/-- The rule that a pointer into a schema leads to: its last segment is the keyword. -/
def resolveRule? (schema : List Rule) (pointer : String) : Option Rule := do
  let segments ← segments? pointer
  let keyword ← segments.getLast?
  let inner ← follow? segments.dropLast schema
  rule? keyword inner

theorem rule?_of_mem {schema : List Rule} (h : wellFormed schema = true) {r : Rule}
    (hr : r ∈ schema) : rule? r.keyword schema = some r :=
  find?_of_mem_of_nodup Rule.keyword ((wellFormed_iff schema).mp h).1 hr

namespace Place

variable {p q : Place} {r : Rule}

/-- A step to another place is a step within the value, or none. -/
theorem at?_of_leads (h : p.WellFormed) (hleads : r.Leads p q) :
    ∃ steps, q.location = p.location ++ steps ∧ p.value.at? steps = some q.value := by
  have hvalue := h.value
  cases hleads with
  | property heq _ hentry =>
      rw [heq] at hvalue ⊢
      refine ⟨[.key _], rfl, ?_⟩
      rw [Json.at?, Json.part?, Json.get?, Json.lookup_of_mem hvalue.keys_nodup hentry]
      rfl
  | item heq hitem =>
      rw [heq]
      refine ⟨[.index _], rfl, ?_⟩
      rw [Json.at?, Json.part?, hitem]
      rfl
  | reference => exact ⟨[], (List.append_nil _).symm, rfl⟩

theorem at?_of_reaches (h : p.WellFormed) (hreaches : p.Reaches q) :
    ∃ steps, q.location = p.location ++ steps ∧ p.value.at? steps = some q.value := by
  induction hreaches with
  | refl => exact ⟨[], (List.append_nil _).symm, rfl⟩
  | tail hreaches hnext ih =>
      obtain ⟨r, _, hleads⟩ := hnext
      obtain ⟨front, hfront, hvalue⟩ := ih
      obtain ⟨back, hback, hnext⟩ := at?_of_leads (h.of_reaches hreaches) hleads
      refine ⟨front ++ back, by rw [hback, hfront, List.append_assoc], ?_⟩
      rw [Json.at?_append, hvalue]
      exact hnext

/-- A step to another place goes along segments that lead from schema to schema. -/
theorem follow?_of_leads (h : p.WellFormed) (hr : r ∈ p.schema) (hleads : r.Leads p q) :
    ∃ way, q.path = p.path ++ way ∧ (∀ segment ∈ way, isPlainSegment segment = true)
      ∧ ∀ rest, follow? (way ++ rest) p.schema = follow? rest q.schema := by
  have hrule := rule?_of_mem h.schema hr
  have hinner := ((wellFormed_iff p.schema).mp h.schema).2 r hr
  cases hleads with
  | property _ hknown _ =>
      rw [ruleWellFormed, propertiesWellFormed_iff] at hinner
      refine ⟨_, rfl, ?_, fun rest => ?_⟩
      · exact List.forall_mem_cons.mpr
          ⟨by decide, List.forall_mem_singleton.mpr (hinner.2 _ hknown).1⟩
      · rw [List.cons_append, List.singleton_append, follow?, show rule? "additionalProperties" _ = _
          from hrule]
        dsimp only
        rw [find?_of_mem_of_nodup Prod.fst hinner.1 hknown]
        rfl
  | item =>
      refine ⟨_, rfl, by decide, fun rest => ?_⟩
      rw [List.singleton_append, follow?, show rule? "items" _ = _ from hrule]
      rfl
  | reference =>
      refine ⟨_, rfl, by decide, fun rest => ?_⟩
      rw [List.singleton_append, follow?, show rule? "$ref" _ = _ from hrule]
      rfl

theorem follow?_of_reaches (h : p.WellFormed) (hreaches : p.Reaches q) :
    ∃ way, q.path = p.path ++ way ∧ (∀ segment ∈ way, isPlainSegment segment = true)
      ∧ ∀ rest, follow? (way ++ rest) p.schema = follow? rest q.schema := by
  induction hreaches with
  | refl => exact ⟨[], (List.append_nil _).symm, List.forall_mem_nil _, fun _ => rfl⟩
  | tail hreaches hnext ih =>
      obtain ⟨r, hr, hleads⟩ := hnext
      obtain ⟨front, hfront, hplain, hfollow⟩ := ih
      obtain ⟨back, hback, hplain', hfollow'⟩ := follow?_of_leads (h.of_reaches hreaches) hr hleads
      refine ⟨front ++ back, by rw [hback, hfront, List.append_assoc],
        List.forall_mem_append.mpr ⟨hplain, hplain'⟩, fun rest => ?_⟩
      rw [List.append_assoc, hfollow, hfollow']

/-! ### Places of a document -/

/-- A whole document, held to a schema. -/
def root (schema : List Rule) (value : Json) : Place := ⟨[], [], schema, value⟩

variable {schema : List Rule} {value : Json}

theorem at?_location (h : (root schema value).WellFormed)
    (hreaches : (root schema value).Reaches q) :
    value.at? q.location = some q.value := by
  obtain ⟨steps, hlocation, hat⟩ := at?_of_reaches h hreaches
  rw [hlocation]
  exact hat

theorem isPlainSegment_path (h : (root schema value).WellFormed)
    (hreaches : (root schema value).Reaches q) (r : Rule) :
    ∀ segment ∈ q.path ++ [r.keyword], isPlainSegment segment = true := by
  obtain ⟨way, hway, hplain, -⟩ := follow?_of_reaches h hreaches
  have hkeywords : ∀ keyword ∈ "items" :: "$ref" :: assertionKeywords,
      isPlainSegment keyword = true := by decide
  exact List.forall_mem_append.mpr
    ⟨hway ▸ hplain, List.forall_mem_singleton.mpr (hkeywords _ r.keyword_mem)⟩

/-- The pointer of a rule that is reached leads to that rule. -/
theorem resolveRule?_of_reaches (h : (root schema value).WellFormed)
    (hreaches : (root schema value).Reaches q) (hr : r ∈ q.schema) :
    resolveRule? schema (pointer (q.path ++ [r.keyword])) = some r := by
  obtain ⟨way, hway, -, hfollow⟩ := follow?_of_reaches h hreaches
  have hschema : follow? q.path schema = some q.schema := by
    have hend := hfollow []
    rw [List.append_nil] at hend
    rw [hway]
    exact hend
  rw [resolveRule?, segments?_path (isPlainSegment_path h hreaches r)]
  simp only [Option.bind_eq_bind, Option.bind_some, List.getLast?_concat, List.dropLast_concat,
    hschema, rule?_of_mem (h.of_reaches hreaches).schema hr]

/-- The two pointers of a violation tell which rule reported it, and of which place. -/
theorem at_iff_pointers (h : (root schema value).WellFormed) {v : Violation}
    (hv : v ∈ (root schema value).violations) (hreaches : (root schema value).Reaches q) :
    v.At q r ↔ v.instancePath = pointer (q.location.map Step.text)
      ∧ v.schemaPath = pointer (q.path ++ [r.keyword]) := by
  constructor
  · intro hat
    rw [Violation.instancePath, Violation.schemaPath, hat.location, hat.rule]
    exact ⟨rfl, rfl⟩
  · rintro ⟨hinstance, hschema⟩
    obtain ⟨origin, horigin, s, _, hown⟩ := exists_reaches_of_mem hv
    obtain ⟨hlocation, hrule⟩ := at_of_mem_own hown
    constructor
    · rw [Violation.instancePath] at hinstance
      have hsegments := congrArg segments? hinstance
      rw [segments?_location, segments?_location] at hsegments
      have hat := at?_location h horigin
      rw [← hlocation] at hat
      exact Json.location_eq_of_segments_eq hat (at?_location h hreaches)
        (Option.some.inj hsegments)
    · rw [Violation.schemaPath, hrule] at hschema
      have hsegments := congrArg segments? hschema
      rw [segments?_path (isPlainSegment_path h horigin s),
        segments?_path (isPlainSegment_path h hreaches r)] at hsegments
      rw [hrule, Option.some.inj hsegments]

end Place

end Schema

end TelemetryTypes
