import TelemetryTypes.Proofs.Resolution.Names

/-!
# What a merge holds

The first type of a name in a merge is the first one that any of the documents declares, so what is
merged in behind other documents is looked at only for names that these lack. The types and metrics
of the documents in front stay where they are.

`merge_keeps_earliest` says which declarations a merge has and in what order. `merge_laws` says how
merges go together: documents can be merged beforehand, wherever they stand, and what adds no name
can be left out.
-/

namespace TelemetryTypes.Definitions

open MetadataType (first?)

/-- A merge has no types of its own. -/
theorem exists_of_mem_types_merge {documents : List Definitions} {t : MetadataType}
    (h : t ∈ (merge documents).types) : ∃ d ∈ documents, t ∈ d.types :=
  List.mem_flatMap.mp ((keepFirstFrom_sublist _ _ _).subset h)

/-- A merge has no metrics of its own. -/
theorem exists_of_mem_metrics_merge {documents : List Definitions} {m : Metric}
    (h : m ∈ (merge documents).metrics) : ∃ d ∈ documents, m ∈ d.metrics :=
  List.mem_flatMap.mp ((keepFirstFrom_sublist _ _ _).subset h)

theorem first?_types_merge (documents : List Definitions) (name : String) :
    first? (merge documents).types name = first? (documents.flatMap types) name :=
  find?_keepFirst MetadataType.name _ name

theorem first?_merge_append (front back : List Definitions) (name : String) :
    first? (merge (front ++ back)).types name
      = (first? (merge front).types name).or (first? (merge back).types name) := by
  rw [first?_types_merge, first?_types_merge, first?_types_merge, List.flatMap_append, first?,
    List.find?_append]
  rfl

theorem metrics_merge_prefix (front back : List Definitions) :
    (merge front).metrics <+: (merge (front ++ back)).metrics := by
  have hmetrics : (concat (front ++ back)).metrics
      = (concat front).metrics ++ (concat back).metrics := List.flatMap_append
  change keepFirst Metric.name (concat front).metrics
    <+: keepFirst Metric.name (concat (front ++ back)).metrics
  rw [hmetrics]
  exact keepFirst_prefix_append Metric.name _ _

/-! ### Which declarations a merge has -/

/-- What is declared in a merge, types or metrics: of every name that a document declares the first
declaration in the earliest of the documents that have one, in the order in which the names first
occur, and nothing else. What else the documents declare has no part in it. -/
structure KeepsEarliest {α : Type} (key : α → String) (declared : Definitions → List α)
    (lookup? : Definitions → String → Option α) (documents : List Definitions) : Prop where
  sublist : (declared (merge documents)).Sublist (documents.flatMap declared)
  nodup : ((declared (merge documents)).map key).Nodup
  complete : ∀ d ∈ documents, ∀ item ∈ declared d, key item ∈ (declared (merge documents)).map key
  ordered : ((declared (merge documents)).map key).Pairwise fun a b =>
    ((documents.flatMap declared).map key).idxOf a < ((documents.flatMap declared).map key).idxOf b
  earliest : ∀ name, lookup? (merge documents) name = documents.findSome? (lookup? · name)
  apart : ∀ others, others.map declared = documents.map declared →
    declared (merge others) = declared (merge documents)

/-- What is kept first of everything that is declared, and looked up by its name, is kept of the
earliest document. -/
theorem keepsEarliest {α : Type} {key : α → String} {declared : Definitions → List α}
    {lookup? : Definitions → String → Option α}
    (hmerge : ∀ documents, declared (merge documents) = keepFirst key (documents.flatMap declared))
    (hlookup : ∀ d name, lookup? d name = (declared d).find? (key · == name))
    (documents : List Definitions) : KeepsEarliest key declared lookup? documents where
  sublist := by
    rw [hmerge]
    exact keepFirstFrom_sublist key [] _
  nodup := by
    rw [hmerge]
    exact nodup_map_keepFirst key _
  complete d hd item hitem := by
    rw [hmerge, mem_map_keepFirst]
    exact List.mem_map_of_mem (List.mem_flatMap.mpr ⟨d, hd, hitem⟩)
  ordered := by
    rw [hmerge, keepFirst, map_keepFirstFrom]
    exact pairwise_idxOf_keepFirstFrom [] _
  earliest name := by
    rw [hlookup, hmerge, find?_keepFirst, List.find?_flatMap]
    simp only [hlookup]
  apart others hsame := by
    rw [hmerge, hmerge, List.flatMap_def, List.flatMap_def, hsame]

/-- **The earliest declaration of every name is kept.** Whatever is declared again, in the same
document or in another one, a merge has one type for every name that any document gives to a type,
the first one of the first of these documents, in the order of first occurrence; and the same of
metrics, whatever the types are. -/
theorem merge_keeps_earliest (documents : List Definitions) :
    KeepsEarliest MetadataType.name types metadataType? documents
      ∧ KeepsEarliest Metric.name metrics metric? documents :=
  ⟨keepsEarliest (fun _ => rfl) (fun _ _ => rfl) documents,
    keepsEarliest (fun _ => rfl) (fun _ _ => rfl) documents⟩

/-! ### How merges go together -/

theorem merge_eq_merge {documents others : List Definitions}
    (htypes : keepFirst MetadataType.name (documents.flatMap types)
      = keepFirst MetadataType.name (others.flatMap types))
    (hmetrics : keepFirst Metric.name (documents.flatMap metrics)
      = keepFirst Metric.name (others.flatMap metrics)) : merge documents = merge others :=
  congrArg₂ Definitions.mk htypes hmetrics

/-- A block of documents can be merged beforehand. -/
theorem merge_append_merge (front block back : List Definitions) :
    merge (front ++ [merge block] ++ back) = merge (front ++ block ++ back) := by
  apply merge_eq_merge
  · simp only [List.flatMap_append, List.flatMap_singleton]
    exact keepFirst_append_keepFirst MetadataType.name _ _ _
  · simp only [List.flatMap_append, List.flatMap_singleton]
    exact keepFirst_append_keepFirst Metric.name _ _ _

/-- Documents can be left out where all their names are declared further in front. -/
theorem merge_append_of_subset {front block : List Definitions}
    (htypes : (block.flatMap types).map MetadataType.name
      ⊆ (front.flatMap types).map MetadataType.name)
    (hmetrics : (block.flatMap metrics).map Metric.name ⊆ (front.flatMap metrics).map Metric.name)
    (back : List Definitions) : merge (front ++ block ++ back) = merge (front ++ back) := by
  apply merge_eq_merge
  · simp only [List.flatMap_append]
    exact keepFirst_append_of_subset MetadataType.name htypes _
  · simp only [List.flatMap_append]
    exact keepFirst_append_of_subset Metric.name hmetrics _

/-- A document that is already there adds nothing further back. -/
theorem merge_append_of_mem {front : List Definitions} {d : Definitions} (hd : d ∈ front)
    (back : List Definitions) : merge (front ++ [d] ++ back) = merge (front ++ back) := by
  have hsub {α : Type} (declared : Definitions → List α) (key : α → String) :
      ([d].flatMap declared).map key ⊆ (front.flatMap declared).map key := by
    rw [List.flatMap_singleton]
    exact List.map_subset key fun item hitem => List.mem_flatMap.mpr ⟨d, hd, hitem⟩
  exact merge_append_of_subset (hsub types MetadataType.name) (hsub metrics Metric.name) back

/-- **Merging is an algebra.** Any block of documents can be merged beforehand, the empty document
is neutral in every place, and a document can be repeated anywhere behind itself. So merging two by
two is associative, a document merged with itself is merged once, and a merge is merged already. -/
theorem merge_laws :
    (∀ front block back : List Definitions,
        merge (front ++ block ++ back) = merge (front ++ [merge block] ++ back))
      ∧ (∀ front back : List Definitions, merge (front ++ [empty] ++ back) = merge (front ++ back))
      ∧ (∀ (front : List Definitions) (d : Definitions) (middle back : List Definitions),
        merge (front ++ [d] ++ middle ++ [d] ++ back) = merge (front ++ [d] ++ middle ++ back))
      ∧ (∀ a b c : Definitions, merge [merge [a, b], c] = merge [a, merge [b, c]])
      ∧ (∀ d : Definitions, merge [d, d] = merge [d])
      ∧ ∀ documents : List Definitions, merge [merge documents] = merge documents := by
  refine ⟨fun front block back => (merge_append_merge front block back).symm, fun front back => ?_,
    fun front d middle back => ?_, fun a b c => ?_, fun d => ?_, fun documents => ?_⟩
  · exact merge_append_of_subset (List.nil_subset _) (List.nil_subset _) back
  · exact merge_append_of_mem (by simp) back
  · calc merge [merge [a, b], c]
        = merge [a, b, c] := merge_append_merge [] [a, b] [c]
      _ = merge [a, merge [b, c]] := (merge_append_merge [a] [b, c] []).symm
  · exact @merge_append_of_mem [d] d List.mem_cons_self []
  · simpa using merge_append_merge [] documents []

end TelemetryTypes.Definitions
