import TelemetryTypes.Json.Basic
import TelemetryTypes.Proofs.Definitions.FirstOccurrence

/-!
# The entries of an object

An object is looked up by key and made entry by entry. Where keys are distinct a lookup finds every
entry, and an object that is made from entries has these and no others, whatever order it puts them
in. Whatever the keys, the object that is made has them in strict order.
-/

namespace TelemetryTypes.Json

/-- The value of a key, if the value is an object that has the key. -/
def get? (key : String) : Json → Option Json
  | .object entries => lookup key entries
  | _ => none

variable {entries : List (String × Json)} {key : String} {value : Json}

theorem mem_of_lookup (h : lookup key entries = some value) : (key, value) ∈ entries := by
  obtain ⟨⟨name, found⟩, hfind, rfl⟩ := Option.map_eq_some_iff.mp h
  obtain rfl : name = key := by simpa using List.find?_some hfind
  exact List.mem_of_find?_eq_some hfind

theorem lookup_eq_none_iff : lookup key entries = none ↔ key ∉ entries.map Prod.fst := by
  rw [lookup, Option.map_eq_none_iff, List.find?_eq_none, List.mem_map]
  simp only [beq_iff_eq, not_exists, not_and]

theorem lookup_of_mem (hnodup : (entries.map Prod.fst).Nodup) (hmem : (key, value) ∈ entries) :
    lookup key entries = some value := by
  rw [lookup, find?_of_mem_of_nodup Prod.fst hnodup hmem, Option.map_some]

theorem lookup_append (key : String) (front back : List (String × Json)) :
    lookup key (front ++ back) = (lookup key front).or (lookup key back) := by
  rw [lookup, List.find?_append]
  cases hfront : front.find? (·.1 == key) <;> simp [lookup, hfront]

theorem lookup_nil (key : String) : lookup key [] = none := rfl

theorem lookup_cons (key name : String) (value : Json) (rest : List (String × Json)) :
    lookup key ((name, value) :: rest) = if name = key then some value else lookup key rest := by
  by_cases hname : name = key <;> simp [lookup, hname]

/-! ### Canonical values -/

theorem canonical_array_iff {items : List Json} :
    (Json.array items).Canonical ↔ ∀ item ∈ items, item.Canonical := by
  rw [Canonical]
  induction items with
  | nil => simp [CanonicalItems]
  | cons first rest ih => rw [CanonicalItems, ih, List.forall_mem_cons]

theorem canonical_object_iff :
    (Json.object entries).Canonical
      ↔ entries.Pairwise (·.1 < ·.1) ∧ ∀ entry ∈ entries, entry.2.Canonical := by
  have hentries : CanonicalEntries entries ↔ ∀ entry ∈ entries, entry.2.Canonical := by
    induction entries with
    | nil => simp [CanonicalEntries]
    | cons first rest ih => rw [CanonicalEntries, ih, List.forall_mem_cons]
  rw [Canonical, hentries]

theorem Canonical.item {items : List Json} (h : Canonical (.array items)) {item : Json}
    (hitem : item ∈ items) : item.Canonical :=
  canonical_array_iff.mp h item hitem

theorem Canonical.entry (h : Canonical (.object entries)) (hentry : (key, value) ∈ entries) :
    value.Canonical :=
  (canonical_object_iff.mp h).2 (key, value) hentry

theorem keys_nodup_of_pairwise (h : entries.Pairwise (·.1 < ·.1)) :
    (entries.map Prod.fst).Nodup := by
  rw [List.Nodup, List.pairwise_map]
  refine h.imp fun {a b} hlt heq => ?_
  rw [heq] at hlt
  exact String.lt_irrefl _ hlt

theorem Canonical.keys_nodup (h : Canonical (.object entries)) : (entries.map Prod.fst).Nodup :=
  keys_nodup_of_pairwise (canonical_object_iff.mp h).1

/-! ### Objects made from entries -/

/-- A key that is not there yet is put in beside what is there. -/
theorem insert_perm (hnew : key ∉ entries.map Prod.fst) :
    (insert key value entries).Perm ((key, value) :: entries) := by
  induction entries with
  | nil => exact .refl _
  | cons first rest ih =>
      rw [List.map_cons, List.mem_cons, not_or] at hnew
      rw [insert, if_neg hnew.1]
      split
      · exact .refl _
      · exact ((ih hnew.2).cons first).trans (.swap _ _ _)

theorem foldl_insert_perm {front : List (String × Json)}
    (hnodup : ((front ++ entries).map Prod.fst).Nodup) :
    (entries.foldl (fun kept entry => insert entry.1 entry.2 kept) front).Perm
      (front ++ entries) := by
  induction entries generalizing front with
  | nil => simp
  | cons entry rest ih =>
      have hnew : entry.1 ∉ front.map Prod.fst := by
        rw [List.map_append, List.nodup_append] at hnodup
        exact fun hmem => hnodup.2.2 _ hmem _ List.mem_cons_self rfl
      have hmiddle : (insert entry.1 entry.2 front ++ rest).Perm (front ++ entry :: rest) :=
        ((insert_perm hnew).append_right rest).trans List.perm_middle.symm
      exact (ih ((hmiddle.map Prod.fst).nodup_iff.mpr hnodup)).trans hmiddle

/-- Distinct keys make an object with exactly their entries. -/
theorem exists_ofEntries_eq (hnodup : (entries.map Prod.fst).Nodup) :
    ∃ kept, ofEntries entries = .object kept ∧ kept.Perm entries :=
  ⟨_, rfl, foldl_insert_perm hnodup⟩

/-- An object made from distinct keys is looked up like the entries that it is made from. -/
theorem get?_ofEntries (hnodup : (entries.map Prod.fst).Nodup) (key : String) :
    (ofEntries entries).get? key = lookup key entries := by
  obtain ⟨kept, hkept, hperm⟩ := exists_ofEntries_eq hnodup
  have hkeys : (kept.map Prod.fst).Nodup := (hperm.map Prod.fst).nodup_iff.mpr hnodup
  rw [hkept, get?, lookup, lookup, find?_eq_of_perm Prod.fst hperm hkeys]

/-! ### Canonical objects -/

theorem eq_or_mem_of_mem_insert {entry : String × Json} (h : entry ∈ insert key value entries) :
    entry = (key, value) ∨ entry ∈ entries := by
  induction entries with
  | nil => exact .inl (List.mem_singleton.mp h)
  | cons first rest ih =>
      rw [insert] at h
      split at h
      · exact (List.mem_cons.mp h).imp_right (List.mem_cons_of_mem first)
      · split at h
        · exact List.mem_cons.mp h
        · rcases List.mem_cons.mp h with rfl | hrest
          · exact .inr List.mem_cons_self
          · exact (ih hrest).imp_right (List.mem_cons_of_mem first)

theorem pairwise_insert (h : entries.Pairwise (·.1 < ·.1)) :
    (insert key value entries).Pairwise (·.1 < ·.1) := by
  induction entries with
  | nil => exact List.pairwise_singleton _ _
  | cons first rest ih =>
      obtain ⟨hfirst, hrest⟩ := List.pairwise_cons.mp h
      rw [insert]
      split
      next heq =>
        exact List.pairwise_cons.mpr ⟨fun entry hentry => heq ▸ hfirst entry hentry, hrest⟩
      next hne =>
        split
        next hlt =>
          refine List.pairwise_cons.mpr ⟨List.forall_mem_cons.mpr ⟨hlt, fun entry hentry => ?_⟩, h⟩
          exact String.lt_trans hlt (hfirst entry hentry)
        next hle =>
          refine List.pairwise_cons.mpr ⟨fun entry hentry => ?_, ih hrest⟩
          rcases eq_or_mem_of_mem_insert hentry with rfl | hmem
          · exact Std.lt_of_le_of_ne (String.not_lt.mp hle) (Ne.symm hne)
          · exact hfirst entry hmem

theorem pairwise_foldl_insert {front : List (String × Json)} (h : front.Pairwise (·.1 < ·.1)) :
    (entries.foldl (fun kept entry => insert entry.1 entry.2 kept) front).Pairwise (·.1 < ·.1) := by
  induction entries generalizing front with
  | nil => exact h
  | cons entry rest ih => exact ih (pairwise_insert h)

/-- Distinct keys make one object, in whatever order their entries come. -/
theorem ofEntries_eq_of_perm {entries' : List (String × Json)} (hperm : entries.Perm entries')
    (hnodup : (entries.map Prod.fst).Nodup) : ofEntries entries = ofEntries entries' := by
  have hnodup' := (hperm.map Prod.fst).nodup hnodup
  have hkept := (@foldl_insert_perm entries [] hnodup).trans
    (hperm.trans (@foldl_insert_perm entries' [] hnodup').symm)
  have heq := hkept.eq_of_pairwise (fun a b _ _ hab hba => absurd hba (String.lt_asymm hab))
    (pairwise_foldl_insert .nil) (pairwise_foldl_insert .nil)
  rw [ofEntries, ofEntries, heq]

/-- Entries that stand in the order of their keys are those of the object that they make. -/
theorem ofEntries_of_pairwise (h : entries.Pairwise (·.1 < ·.1)) :
    ofEntries entries = .object entries := by
  have hperm := @foldl_insert_perm entries [] (keys_nodup_of_pairwise h)
  rw [ofEntries, hperm.eq_of_pairwise (fun a b _ _ hab hba => absurd hba (String.lt_asymm hab))
    (pairwise_foldl_insert .nil) h]

theorem Canonical.insert (h : (Json.object entries).Canonical) (hvalue : value.Canonical) :
    (Json.object (insert key value entries)).Canonical := by
  rw [canonical_object_iff] at h ⊢
  refine ⟨pairwise_insert h.1, fun entry hentry => ?_⟩
  rcases eq_or_mem_of_mem_insert hentry with rfl | hmem
  · exact hvalue
  · exact h.2 entry hmem

/-- An object made from entries is canonical if their values are, in whatever order they come. -/
theorem canonical_ofEntries (h : ∀ entry ∈ entries, entry.2.Canonical) :
    (ofEntries entries).Canonical := by
  have hfold : ∀ front, (Json.object front).Canonical → (Json.object
      (entries.foldl (fun kept entry => Json.insert entry.1 entry.2 kept) front)).Canonical := by
    induction entries with
    | nil => exact fun front hfront => hfront
    | cons first rest ih =>
        rw [List.forall_mem_cons] at h
        exact fun front hfront => ih h.2 _ (hfront.insert h.1)
  exact hfold [] (canonical_object_iff.mpr ⟨.nil, List.forall_mem_nil _⟩)

end TelemetryTypes.Json
