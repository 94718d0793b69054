import Mathlib.Data.List.Nodup
import TelemetryTypes.Definitions.Merge

/-!
# First occurrences

`keepFirst` decides what counts wherever a name is declared or referred to more than once. It walks
a list with the keys it has seen; `keepFirst_eq_eraseDupsBy` says what that comes to. The rest reads
it by key: every key stays, none stays twice, and looking a key up finds what it found before.
-/

namespace TelemetryTypes

variable {α : Type} (key : α → String)

/-- The walk depends on which of the keys before it were seen, and not on their order. -/
theorem keepFirstFrom_congr {seen seen' : List String} {items : List α}
    (hsame : ∀ item ∈ items, key item ∈ seen ↔ key item ∈ seen') :
    keepFirstFrom key seen items = keepFirstFrom key seen' items := by
  induction items generalizing seen seen' with
  | nil => rfl
  | cons item rest ih =>
      rw [List.forall_mem_cons] at hsame
      have hcons : ∀ other ∈ rest, key other ∈ key item :: seen ↔ key other ∈ key item :: seen' := by
        intro other hother
        rw [List.mem_cons, List.mem_cons, hsame.2 other hother]
      simp only [keepFirstFrom, hsame.1, ih hsame.2, ih hcons]

theorem keepFirstFrom_append (seen : List String) (front back : List α) :
    keepFirstFrom key seen (front ++ back)
      = keepFirstFrom key seen front ++ keepFirstFrom key (front.map key ++ seen) back := by
  induction front generalizing seen with
  | nil => rfl
  | cons item rest ih =>
      by_cases hseen : key item ∈ seen
      · have hsame : keepFirstFrom key (rest.map key ++ seen) back
            = keepFirstFrom key ((item :: rest).map key ++ seen) back := by
          apply keepFirstFrom_congr
          intro other _
          simp only [List.map_cons, List.cons_append, List.mem_cons, List.mem_append]
          constructor
          · exact .inr
          · rintro (heq | h)
            · exact .inr (heq ▸ hseen)
            · exact h
        simp only [List.cons_append, keepFirstFrom, if_pos hseen, ih, hsame]
      · have hsame : keepFirstFrom key (rest.map key ++ key item :: seen) back
            = keepFirstFrom key ((item :: rest).map key ++ seen) back := by
          apply keepFirstFrom_congr
          intro other _
          simp only [List.map_cons, List.cons_append, List.mem_cons, List.mem_append]
          tauto
        simp only [List.cons_append, keepFirstFrom, if_neg hseen, ih, hsame]

theorem keepFirst_append (front back : List α) :
    keepFirst key (front ++ back)
      = keepFirst key front ++ keepFirstFrom key (front.map key) back := by
  rw [keepFirst, keepFirstFrom_append, List.append_nil]
  rfl

theorem keepFirst_concat (items : List α) (item : α) :
    keepFirst key (items ++ [item])
      = if key item ∈ items.map key then keepFirst key items else keepFirst key items ++ [item] := by
  rw [keepFirst_append]
  by_cases hseen : key item ∈ items.map key
  · rw [if_pos hseen, keepFirstFrom, if_pos hseen, keepFirstFrom, List.append_nil]
  · rw [if_neg hseen, keepFirstFrom, if_neg hseen, keepFirstFrom]

/-- What comes behind a list takes nothing away from what it keeps. -/
theorem keepFirst_prefix_append (front back : List α) :
    keepFirst key front <+: keepFirst key (front ++ back) := by
  rw [keepFirst_append]
  exact List.prefix_append _ _

theorem keepFirst_prefix {items items' : List α} (h : items <+: items') :
    keepFirst key items <+: keepFirst key items' := by
  obtain ⟨back, rfl⟩ := h
  exact keepFirst_prefix_append key items back

theorem keepFirstFrom_eq_eraseDupsBy (seen : List String) (items : List α) :
    keepFirstFrom key seen items
      = (items.filter fun item => !decide (key item ∈ seen)).eraseDupsBy
          fun item other => key item == key other := by
  induction items generalizing seen with
  | nil => rfl
  | cons item rest ih =>
      by_cases hseen : key item ∈ seen
      · rw [keepFirstFrom, if_pos hseen, ih, List.filter_cons_of_neg (by simpa using hseen)]
      · rw [keepFirstFrom, if_neg hseen, ih, List.filter_cons_of_pos (by simpa using hseen),
          List.eraseDupsBy_cons, List.filter_filter]
        congr 2
        apply List.filter_congr
        intro other _
        by_cases heq : key other = key item <;> simp [heq]

/-- What is kept is the list without the items that repeat an earlier key. -/
theorem keepFirst_eq_eraseDupsBy (items : List α) :
    keepFirst key items = items.eraseDupsBy fun item other => key item == key other := by
  rw [keepFirst, keepFirstFrom_eq_eraseDupsBy]
  simp

theorem keepFirst_id (names : List String) : keepFirst id names = names.eraseDups :=
  keepFirst_eq_eraseDupsBy id names

theorem keepFirstFrom_sublist (seen : List String) (items : List α) :
    (keepFirstFrom key seen items).Sublist items := by
  induction items generalizing seen with
  | nil => exact .slnil
  | cons item rest ih =>
      unfold keepFirstFrom
      split
      · exact (ih seen).cons item
      · exact (ih (key item :: seen)).cons_cons item

/-! ### Keys -/

theorem mem_map_keepFirstFrom {seen : List String} {items : List α} {name : String} :
    name ∈ (keepFirstFrom key seen items).map key ↔ name ∈ items.map key ∧ name ∉ seen := by
  induction items generalizing seen with
  | nil => simp [keepFirstFrom]
  | cons item rest ih =>
      by_cases hseen : key item ∈ seen
      · rw [keepFirstFrom, if_pos hseen, ih, List.map_cons, List.mem_cons]
        constructor
        · exact fun h => ⟨.inr h.1, h.2⟩
        · rintro ⟨rfl | h, hnot⟩
          · exact absurd hseen hnot
          · exact ⟨h, hnot⟩
      · rw [keepFirstFrom, if_neg hseen, List.map_cons, List.mem_cons, ih, List.map_cons,
          List.mem_cons, List.mem_cons, not_or]
        constructor
        · rintro (rfl | ⟨h, _, hnot⟩)
          · exact ⟨.inl rfl, hseen⟩
          · exact ⟨.inr h, hnot⟩
        · rintro ⟨h, hnot⟩
          by_cases heq : name = key item
          · exact .inl heq
          · exact .inr ⟨h.resolve_left heq, heq, hnot⟩

@[simp] theorem mem_map_keepFirst (items : List α) (name : String) :
    name ∈ (keepFirst key items).map key ↔ name ∈ items.map key := by
  rw [keepFirst, mem_map_keepFirstFrom]
  simp

theorem nodup_map_keepFirstFrom (seen : List String) (items : List α) :
    ((keepFirstFrom key seen items).map key).Nodup := by
  induction items generalizing seen with
  | nil => exact List.nodup_nil
  | cons item rest ih =>
      by_cases hseen : key item ∈ seen
      · rw [keepFirstFrom, if_pos hseen]
        exact ih seen
      · rw [keepFirstFrom, if_neg hseen, List.map_cons, List.nodup_cons]
        refine ⟨fun hmem => ?_, ih _⟩
        exact ((mem_map_keepFirstFrom key).mp hmem).2 List.mem_cons_self

theorem nodup_map_keepFirst (items : List α) : ((keepFirst key items).map key).Nodup :=
  nodup_map_keepFirstFrom key [] items

theorem map_keepFirstFrom (seen : List String) (items : List α) :
    (keepFirstFrom key seen items).map key = keepFirstFrom id seen (items.map key) := by
  induction items generalizing seen with
  | nil => rfl
  | cons item rest ih =>
      by_cases hseen : key item ∈ seen <;> simp [keepFirstFrom, hseen, ih]

/-- A change that keeps the keys keeps the items that are first to them. -/
theorem keepFirst_map (f : α → α) (hkey : ∀ a, key (f a) = key a) (items : List α) :
    keepFirst key (items.map f) = (keepFirst key items).map f := by
  have hfrom : ∀ seen, keepFirstFrom key seen (items.map f)
      = (keepFirstFrom key seen items).map f := by
    induction items with
    | nil => exact fun _ => rfl
    | cons item rest ih =>
        intro seen
        by_cases hseen : key item ∈ seen <;> simp [keepFirstFrom, hkey, hseen, ih]
  exact hfrom []

/-! ### Keeping twice

A list that is kept from already is kept as a whole, and what repeats keys from before adds nothing.
-/

theorem keepFirstFrom_keepFirstFrom {seen seen' : List String} (hsub : seen' ⊆ seen)
    (items : List α) :
    keepFirstFrom key seen (keepFirstFrom key seen' items) = keepFirstFrom key seen items := by
  induction items generalizing seen seen' with
  | nil => rfl
  | cons item rest ih =>
      by_cases hseen' : key item ∈ seen'
      · simp [keepFirstFrom, hseen', hsub hseen', ih hsub]
      · by_cases hseen : key item ∈ seen
        · have hcons : key item :: seen' ⊆ seen := List.cons_subset.mpr ⟨hseen, hsub⟩
          simp [keepFirstFrom, hseen', hseen, ih hcons]
        · have hcons : key item :: seen' ⊆ key item :: seen := List.cons_subset_cons _ hsub
          simp [keepFirstFrom, hseen', hseen, ih hcons]

theorem keepFirstFrom_of_forall_mem {seen : List String} {items : List α}
    (hseen : ∀ item ∈ items, key item ∈ seen) : keepFirstFrom key seen items = [] := by
  induction items with
  | nil => rfl
  | cons item rest ih =>
      rw [List.forall_mem_cons] at hseen
      rw [keepFirstFrom, if_pos hseen.1]
      exact ih hseen.2

/-- A part of a list can be cut down to what it keeps by itself. -/
theorem keepFirst_append_keepFirst (front items back : List α) :
    keepFirst key (front ++ keepFirst key items ++ back)
      = keepFirst key (front ++ items ++ back) := by
  have hitems : keepFirst key (front ++ keepFirst key items) = keepFirst key (front ++ items) := by
    rw [keepFirst_append, keepFirst_append]
    exact congrArg _ (keepFirstFrom_keepFirstFrom key (List.nil_subset _) items)
  have hback : keepFirstFrom key ((front ++ keepFirst key items).map key) back
      = keepFirstFrom key ((front ++ items).map key) back := by
    apply keepFirstFrom_congr
    intro item _
    simp only [List.map_append, List.mem_append, mem_map_keepFirst]
  rw [keepFirst_append key (front ++ _), keepFirst_append key (front ++ _), hitems, hback]

/-- Items can be left out where the keys of all of them are found further in front. -/
theorem keepFirst_append_of_subset {front items : List α} (hsub : items.map key ⊆ front.map key)
    (back : List α) : keepFirst key (front ++ items ++ back) = keepFirst key (front ++ back) := by
  have hitems : keepFirst key (front ++ items) = keepFirst key front := by
    have hnone : keepFirstFrom key (front.map key) items = [] :=
      keepFirstFrom_of_forall_mem key fun item hitem => hsub (List.mem_map_of_mem hitem)
    rw [keepFirst_append, hnone, List.append_nil]
  have hback : keepFirstFrom key ((front ++ items).map key) back
      = keepFirstFrom key (front.map key) back := by
    apply keepFirstFrom_congr
    intro item _
    rw [List.map_append, List.mem_append]
    exact or_iff_left_of_imp fun h => hsub h
  rw [keepFirst_append key (front ++ _), keepFirst_append key front back, hitems, hback]

/-! ### Names

On names themselves the walk commutes with a filter, and keeps their order. -/

/-- Names that are kept stand in the order in which they first occur. -/
theorem pairwise_idxOf_keepFirstFrom (seen names : List String) :
    (keepFirstFrom id seen names).Pairwise fun a b => names.idxOf a < names.idxOf b := by
  induction names generalizing seen with
  | nil => exact .nil
  | cons name rest ih =>
      -- Behind a name, another one occurs one place further than in the rest.
      have hshift (seen : List String) (hname : name ∈ seen) :
          (keepFirstFrom id seen rest).Pairwise
            fun a b => (name :: rest).idxOf a < (name :: rest).idxOf b := by
        refine (ih seen).imp_of_mem fun {a b} ha hb hlt => ?_
        have hne (other : String) (hother : other ∈ keepFirstFrom id seen rest) : name ≠ other := by
          have hkept := (mem_map_keepFirstFrom id).mp (List.mem_map_of_mem (f := id) hother)
          exact fun heq => hkept.2 (heq ▸ hname)
        rw [List.idxOf_cons_ne _ (hne a ha), List.idxOf_cons_ne _ (hne b hb)]
        exact Nat.succ_lt_succ hlt
      by_cases hseen : id name ∈ seen
      · rw [keepFirstFrom, if_pos hseen]
        exact hshift seen hseen
      · rw [keepFirstFrom, if_neg hseen, List.pairwise_cons]
        refine ⟨fun other hother => ?_, hshift _ List.mem_cons_self⟩
        have hkept := (mem_map_keepFirstFrom id).mp (List.mem_map_of_mem (f := id) hother)
        have hne : name ≠ other := fun heq => hkept.2 (heq ▸ List.mem_cons_self)
        rw [List.idxOf_cons_self, List.idxOf_cons_ne _ hne]
        exact Nat.succ_pos _

theorem filter_keepFirstFrom (p : String → Bool) (seen names : List String) :
    (keepFirstFrom id seen names).filter p = keepFirstFrom id seen (names.filter p) := by
  induction names generalizing seen with
  | nil => rfl
  | cons name rest ih =>
      by_cases hseen : name ∈ seen
      · cases hp : p name <;> simp [keepFirstFrom, hseen, hp, ih]
      · cases hp : p name with
        | true => simp [keepFirstFrom, hseen, hp, ih]
        | false =>
            -- The name is seen on the left only; but the filter drops it on both sides.
            have hsame : keepFirstFrom id (name :: seen) (rest.filter p)
                = keepFirstFrom id seen (rest.filter p) := by
              apply keepFirstFrom_congr
              intro other hother
              have hne : other ≠ name := by
                rintro rfl
                simp [hp] at hother
              simp [hne]
            simp [keepFirstFrom, hseen, hp, ih, hsame]

theorem keepFirstFrom_flatMap_keepFirst (seen : List String) (items : List α)
    (names : α → List String) :
    keepFirstFrom id seen (items.flatMap fun item => keepFirst id (names item))
      = keepFirstFrom id seen (items.flatMap names) := by
  induction items generalizing seen with
  | nil => rfl
  | cons item rest ih =>
      have hsame : keepFirstFrom id ((keepFirst id (names item)).map id ++ seen)
            (rest.flatMap fun other => keepFirst id (names other))
          = keepFirstFrom id ((names item).map id ++ seen)
            (rest.flatMap fun other => keepFirst id (names other)) := by
        apply keepFirstFrom_congr
        intro name _
        rw [List.mem_append, List.mem_append, mem_map_keepFirst]
      rw [List.flatMap_cons, List.flatMap_cons, keepFirstFrom_append, keepFirstFrom_append, hsame,
        ih, keepFirst, keepFirstFrom_keepFirstFrom id (List.nil_subset seen)]

/-! ### Lookups -/

theorem find?_keepFirstFrom {seen : List String} {name : String} (hname : name ∉ seen)
    (items : List α) :
    (keepFirstFrom key seen items).find? (key · == name) = items.find? (key · == name) := by
  induction items generalizing seen with
  | nil => rfl
  | cons item rest ih =>
      by_cases heq : key item = name
      · rw [keepFirstFrom, if_neg (heq ▸ hname)]
        simp [heq]
      · have hrest : name ∉ key item :: seen := by
          rw [List.mem_cons, not_or]
          exact ⟨Ne.symm heq, hname⟩
        by_cases hseen : key item ∈ seen
        · rw [keepFirstFrom, if_pos hseen, ih hname]
          simp [heq]
        · rw [keepFirstFrom, if_neg hseen]
          simp [heq, ih hrest]

theorem find?_keepFirst (items : List α) (name : String) :
    (keepFirst key items).find? (key · == name) = items.find? (key · == name) :=
  find?_keepFirstFrom key List.not_mem_nil items

theorem find?_beq (names : List String) (name : String) :
    names.find? (· == name) = if name ∈ names then some name else none := by
  induction names with
  | nil => rfl
  | cons first rest ih =>
      by_cases heq : first = name
      · simp [heq]
      · simp [heq, Ne.symm heq, ih]

/-- Where keys are distinct, every item is what its key finds. -/
theorem find?_of_mem_of_nodup {items : List α} (hnodup : (items.map key).Nodup) {item : α}
    (hmem : item ∈ items) : items.find? (key · == key item) = some item := by
  induction items with
  | nil => exact absurd hmem List.not_mem_nil
  | cons first rest ih =>
      rw [List.map_cons, List.nodup_cons] at hnodup
      rcases List.mem_cons.mp hmem with rfl | hrest
      · simp
      · have hne : key first ≠ key item := by
          intro heq
          exact hnodup.1 (heq ▸ List.mem_map_of_mem hrest)
        simpa [hne] using ih hnodup.2 hrest

/-- Where keys are distinct, the order of the items does not matter to what a key finds. -/
theorem find?_eq_of_perm {items items' : List α} (hperm : items.Perm items')
    (hnodup : (items.map key).Nodup) (name : String) :
    items.find? (key · == name) = items'.find? (key · == name) := by
  have hnodup' : (items'.map key).Nodup := (hperm.map key).nodup_iff.mp hnodup
  cases hfind : items.find? (key · == name) with
  | some item =>
      have hkey : key item = name := by simpa using List.find?_some hfind
      have hmem : item ∈ items' := hperm.subset (List.mem_of_find?_eq_some hfind)
      rw [← hkey, find?_of_mem_of_nodup key hnodup' hmem]
  | none =>
      rw [List.find?_eq_none] at hfind
      exact (List.find?_eq_none.mpr fun item hitem => hfind item (hperm.symm.subset hitem)).symm

/-- Where keys are distinct, an item is all that has its key. -/
theorem filter_of_mem_of_nodup {items : List α} (hnodup : (items.map key).Nodup) {item : α}
    (hmem : item ∈ items) : items.filter (key · == key item) = [item] := by
  induction items with
  | nil => exact absurd hmem List.not_mem_nil
  | cons first rest ih =>
      rw [List.map_cons, List.nodup_cons] at hnodup
      have hkey : ∀ other ∈ rest, key first ≠ key other := by
        intro other hother heq
        exact hnodup.1 (heq ▸ List.mem_map_of_mem hother)
      rcases List.mem_cons.mp hmem with rfl | hrest
      · have hnone : rest.filter (key · == key item) = [] := by
          rw [List.filter_eq_nil_iff]
          exact fun other hother heq => hkey other hother (eq_of_beq heq).symm
        simp [hnone]
      · simp [hkey item hrest, ih hnodup.2 hrest]

/-- Where keys are distinct and one item alone gives anything, the items give what it gives. -/
theorem flatMap_of_mem_of_nodup {κ β : Type} {key : α → κ} {items : List α}
    (hnodup : (items.map key).Nodup) {item : α} (hmem : item ∈ items) {give : α → List β}
    (hother : ∀ other ∈ items, key other ≠ key item → give other = []) :
    items.flatMap give = give item := by
  obtain ⟨front, back, rfl⟩ := List.append_of_mem hmem
  rw [List.map_append, List.map_cons, List.nodup_middle, List.nodup_cons, List.mem_append,
    not_or] at hnodup
  obtain ⟨⟨hfront, hback⟩, -⟩ := hnodup
  have hnil (others : List α) (hsub : others ⊆ front ++ item :: back)
      (hkey : key item ∉ others.map key) : others.flatMap give = [] := by
    rw [List.flatMap_eq_nil_iff]
    exact fun other hin => hother other (hsub hin) fun heq => hkey (heq ▸ List.mem_map_of_mem hin)
  rw [List.flatMap_append, List.flatMap_cons, hnil front (List.subset_append_left _ _) hfront,
    hnil back (List.Subset.trans (List.subset_cons_self _ _) (List.subset_append_right _ _)) hback,
    List.nil_append, List.append_nil]

/-- Where keys are distinct, a filter makes a key find less and nothing else. -/
theorem find?_filter_of_nodup {items : List α} (hnodup : (items.map key).Nodup) (p : α → Bool)
    (name : String) :
    (items.filter p).find? (key · == name) = (items.find? (key · == name)).filter p := by
  induction items with
  | nil => rfl
  | cons first rest ih =>
      rw [List.map_cons, List.nodup_cons] at hnodup
      by_cases heq : key first = name
      · have hrest : (rest.filter p).find? (key · == name) = none := by
          rw [List.find?_eq_none]
          intro item hitem hkey
          have hmem : key item ∈ rest.map key := List.mem_map_of_mem (List.mem_of_mem_filter hitem)
          rw [eq_of_beq hkey, ← heq] at hmem
          exact hnodup.1 hmem
        cases hp : p first <;> simp [hp, heq, hrest, Option.filter]
      · cases hp : p first <;> simp [hp, heq, ih hnodup.2]

end TelemetryTypes
