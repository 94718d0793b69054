import Mathlib.Data.List.Induction
import TelemetryTypes.Proofs.Definitions.FirstOccurrence
import TelemetryTypes.Resolution

/-!
# Registrations of one registry

Whatever registrations a registry is asked for, it holds the ones that are first to their names, in
their order (`Registry.entries_afterCalls`), and every later answer is fixed by them:
`registry_records_first`.

A registry is searched from its front. `IndexedRegistry` keeps the unions in an array and finds the
position of a union in a table; the two stay in step through all calls, since a name enters the table
with the position at which its union is put (`Mirrors.ask`). So no position is ever out of range.
-/

namespace TelemetryTypes

namespace Registration

/-- The name that is asked for. -/
def name (call : Registration) : String := call.union.name

/-- The first registration of a name among some. -/
def first? (calls : List Registration) (name : String) : Option Registration :=
  calls.find? (·.name == name)

theorem first?_eq_none_iff {calls : List Registration} {name : String} :
    first? calls name = none ↔ name ∉ calls.map Registration.name := by
  simp [first?]

end Registration

open Registration (first?)

namespace Registry

/-- Asks for a registration. -/
def ask (r : Registry) (call : Registration) : Except ResolutionError Bool × Registry :=
  Resolving.answer (Resolving.register call.name call.source call.union.literals) r

/-- The registry that calls leave, those that fail among them. -/
def afterCalls (calls : List Registration) : Registry :=
  calls.foldl (fun r call => (r.ask call).2) empty

/-- A call for a name that was registered for another metadata type. -/
def collision (existing : String) (call : Registration) : ResolutionError :=
  .typeNameCollision call.name (claimant existing) (claimant call.source)

/-! ### Single calls -/

variable {r : Registry} {call entry : Registration}

theorem ask_of_new (h : r.find? call.name = none) : r.ask call = (.ok true, r.push call) := by
  simp only [ask, Resolving.answer, Resolving.register, register, h]
  rfl

theorem ask_of_held (h : r.find? call.name = some entry) :
    r.ask call = (if entry.source = call.source then .ok false
      else .error (collision entry.source call), r) := by
  simp only [ask, Resolving.answer, Resolving.register, register, h]
  split_ifs
  · rfl
  · rfl

theorem source?_of_held (h : r.find? call.name = some entry) :
    r.source? call.name = some entry.source := by
  rw [source?, h, Option.map_some]

theorem source?_of_new (h : r.find? call.name = none) : r.source? call.name = none := by
  rw [source?, h, Option.map_none]

theorem ask_new_iff : (r.ask call).1 = .ok true ↔ r.find? call.name = none := by
  cases h : r.find? call.name with
  | none => simp [ask_of_new h]
  | some entry =>
      by_cases hsource : entry.source = call.source
      · simp [ask_of_held h, hsource]
      · simp [ask_of_held h, hsource]

theorem ask_repeated_iff :
    (r.ask call).1 = .ok false ↔ r.source? call.name = some call.source := by
  cases h : r.find? call.name with
  | none => simp [ask_of_new h, source?_of_new h]
  | some entry => simp [ask_of_held h, source?_of_held h]

theorem ask_collides_iff (e : ResolutionError) :
    (r.ask call).1 = .error e
      ↔ ∃ existing, r.source? call.name = some existing ∧ existing ≠ call.source
        ∧ e = collision existing call := by
  cases h : r.find? call.name with
  | none => simp [ask_of_new h, source?_of_new h]
  | some entry =>
      by_cases hsource : entry.source = call.source
      · simp [ask_of_held h, source?_of_held h, hsource]
      · simp [ask_of_held h, source?_of_held h, hsource, eq_comm]

theorem ask_unchanged (h : (r.ask call).1 ≠ .ok true) : (r.ask call).2 = r := by
  obtain ⟨entry, hheld⟩ := Option.ne_none_iff_exists'.mp (mt ask_new_iff.mpr h)
  rw [ask_of_held hheld]

/-! ### Many calls -/

/-- What is known of a registry from the calls that it has answered. -/
structure RecordsFirst (calls : List Registration) (r : Registry) : Prop where
  names_nodup : (r.unions.map LiteralUnion.name).Nodup
  names_in_order : r.unions.map LiteralUnion.name = (calls.map Registration.name).eraseDups
  get?_eq : ∀ name, r.get? name = (first? calls name).map Registration.union
  source?_eq : ∀ name, r.source? name = (first? calls name).map Registration.source
  new_iff : ∀ call, (r.ask call).1 = .ok true ↔ call.name ∉ calls.map Registration.name
  repeated_iff : ∀ call, (r.ask call).1 = .ok false ↔ r.source? call.name = some call.source
  collides_iff : ∀ call e, (r.ask call).1 = .error e
    ↔ ∃ existing, r.source? call.name = some existing ∧ existing ≠ call.source
      ∧ e = collision existing call
  grown : ∀ call, (r.ask call).1 = .ok true →
    (r.ask call).2.unions = r.unions ++ [call.union] ∧ (r.ask call).2.size = r.size + 1
  unchanged : ∀ call, (r.ask call).1 ≠ .ok true → (r.ask call).2 = r

theorem afterCalls_concat (calls : List Registration) (call : Registration) :
    afterCalls (calls ++ [call]) = ((afterCalls calls).ask call).2 := by
  rw [afterCalls, List.foldl_append]
  rfl

theorem find?_of_entries {calls : List Registration}
    (h : r.entries = keepFirst Registration.name calls) (name : String) :
    r.find? name = first? calls name := by
  rw [find?, h]
  exact find?_keepFirst Registration.name calls name

/-- A registry holds the calls that were the first to their names. -/
theorem entries_afterCalls (calls : List Registration) :
    (afterCalls calls).entries = keepFirst Registration.name calls := by
  induction calls using List.reverseRecOn with
  | nil => rfl
  | append_singleton calls call ih =>
      have hfind := find?_of_entries ih call.name
      rw [afterCalls_concat, keepFirst_concat]
      by_cases hmem : call.name ∈ calls.map Registration.name
      · have hheld := mt Registration.first?_eq_none_iff.mp (not_not_intro hmem)
        rw [← hfind] at hheld
        rw [ask_unchanged (mt ask_new_iff.mp hheld), if_pos hmem, ih]
      · have hnew := hfind.trans (Registration.first?_eq_none_iff.mpr hmem)
        rw [ask_of_new hnew, if_neg hmem, ← ih]
        rfl

theorem recordsFirst_afterCalls (calls : List Registration) :
    RecordsFirst calls (afterCalls calls) := by
  have hentries := entries_afterCalls calls
  have hfind := find?_of_entries hentries
  have hnames : (afterCalls calls).unions.map LiteralUnion.name
      = (keepFirst Registration.name calls).map Registration.name := by
    rw [unions, hentries, List.map_map]
    rfl
  exact
    { names_nodup := by
        rw [hnames]
        exact nodup_map_keepFirst Registration.name calls
      names_in_order := by
        rw [hnames, keepFirst, map_keepFirstFrom, ← keepFirst_id]
        rfl
      get?_eq := fun name => by rw [get?, hfind]
      source?_eq := fun name => by rw [source?, hfind]
      new_iff := fun call => by rw [ask_new_iff, hfind, Registration.first?_eq_none_iff]
      repeated_iff := fun _ => ask_repeated_iff
      collides_iff := fun _ => ask_collides_iff
      grown := fun call hnew => by
        rw [ask_of_new (ask_new_iff.mp hnew)]
        simp [push, unions, size]
      unchanged := fun _ => ask_unchanged }

end Registry

/-! ### Unions found by position -/

/-- A registry with a table: the unions in the order of registration and, for every name, the
position of its union and the metadata type that it was made from. -/
structure IndexedRegistry where
  unions : Array LiteralUnion
  index : Std.HashMap String (Nat × String)

namespace IndexedRegistry

def empty : IndexedRegistry := ⟨#[], ∅⟩

/-- Asks for a registration. The position of a new union is the end of the array. -/
def ask (k : IndexedRegistry) (call : Registration) :
    Except ResolutionError Bool × IndexedRegistry :=
  match k.index[call.name]? with
  | some (_, existing) =>
    if existing = call.source then (.ok false, k)
    else (.error (Registry.collision existing call), k)
  | none =>
    (.ok true, ⟨k.unions.push call.union,
      k.index.insert call.name (k.unions.size, call.source)⟩)

def afterCalls (calls : List Registration) : IndexedRegistry :=
  calls.foldl (fun k call => (k.ask call).2) empty

/-- The union of a name, or none; a position that is out of range is no answer at all. -/
def lookup (k : IndexedRegistry) (name : String) : Option (Option LiteralUnion) :=
  match k.index[name]? with
  | some (position, _) => k.unions[position]?.map some
  | none => some none

def source? (k : IndexedRegistry) (name : String) : Option String := k.index[name]?.map Prod.snd

theorem ask_of_new {k : IndexedRegistry} {call : Registration}
    (h : k.index[call.name]? = none) :
    k.ask call = (.ok true, ⟨k.unions.push call.union,
      k.index.insert call.name (k.unions.size, call.source)⟩) := by
  rw [ask, h]

theorem ask_of_held {k : IndexedRegistry} {call : Registration} {position : Nat}
    {existing : String} (h : k.index[call.name]? = some (position, existing)) :
    k.ask call = (if existing = call.source then .ok false
      else .error (Registry.collision existing call), k) := by
  simp only [ask, h]
  split_ifs
  · rfl
  · rfl

/-- The unions stand as in a registry, and the table knows where. -/
structure Mirrors (k : IndexedRegistry) (r : Registry) : Prop where
  unions_eq : k.unions.toList = r.unions
  index_eq : ∀ name, k.index[name]?
    = (r.entries.zipIdx.find? (·.1.name == name)).map fun e => (e.2, e.1.source)

/-- What can be asked of two registries is answered alike. -/
structure Agrees (k : IndexedRegistry) (r : Registry) : Prop where
  unions_eq : k.unions.toList = r.unions
  lookup_eq : ∀ name, k.lookup name = some (r.get? name)
  source?_eq : ∀ name, k.source? name = r.source? name
  answer_eq : ∀ call, (k.ask call).1 = (r.ask call).1
  unchanged : ∀ call, (k.ask call).1 ≠ .ok true → (k.ask call).2 = k

namespace Mirrors

variable {k : IndexedRegistry} {r : Registry}

/-- A name that is in the table has the position of the registration that is found for it. -/
theorem cases_index (h : Mirrors k r) (name : String) :
    (k.index[name]? = none ∧ r.find? name = none)
      ∨ ∃ position entry, k.index[name]? = some (position, entry.source)
        ∧ r.entries[position]? = some entry ∧ r.find? name = some entry := by
  have hfind : r.find? name
      = (r.entries.zipIdx.find? (·.1.name == name)).map Prod.fst := by
    conv_lhs => rw [Registry.find?, ← List.zipIdx_map_fst 0 r.entries, List.find?_map]
    rfl
  rw [h.index_eq, hfind]
  cases hfound : r.entries.zipIdx.find? (·.1.name == name) with
  | none => exact .inl ⟨rfl, rfl⟩
  | some e =>
      have hposition := List.mem_zipIdx_iff_getElem?.mp (List.mem_of_find?_eq_some hfound)
      exact .inr ⟨e.2, e.1, rfl, hposition, rfl⟩

theorem empty : Mirrors .empty .empty where
  unions_eq := rfl
  index_eq _ := Std.HashMap.getElem?_empty

theorem size_eq (h : Mirrors k r) : k.unions.size = r.entries.length := by
  rw [← Array.length_toList, h.unions_eq, Registry.unions, List.length_map]

/-- A new union is put where the table says that it is. -/
theorem push (h : Mirrors k r) {call : Registration} (hnew : r.find? call.name = none) :
    Mirrors ⟨k.unions.push call.union,
      k.index.insert call.name (k.unions.size, call.source)⟩ (r.push call) where
  unions_eq := by simp [Registry.push, Registry.unions, h.unions_eq]
  index_eq name := by
    have hlast : [call].zipIdx (0 + r.entries.length) = [(call, r.entries.length)] := by
      rw [Nat.zero_add, List.zipIdx_singleton]
    rw [Std.HashMap.getElem?_insert, h.size_eq, Registry.push, List.zipIdx_append, hlast,
      List.find?_append, h.index_eq]
    by_cases hname : call.name = name
    · rcases h.cases_index call.name with ⟨hindex, -⟩ | ⟨_, _, _, _, hfind⟩
      · rw [h.index_eq, Option.map_eq_none_iff, hname] at hindex
        simp [hindex, hname]
      · rw [hnew] at hfind
        cases hfind
    · simp [hname]

/-- One call is answered alike, and leaves the two in step. -/
theorem ask (h : Mirrors k r) (call : Registration) :
    (k.ask call).1 = (r.ask call).1 ∧ Mirrors (k.ask call).2 (r.ask call).2 := by
  rcases h.cases_index call.name with ⟨hindex, hfind⟩ | ⟨position, entry, hindex, -, hfind⟩
  · rw [Registry.ask_of_new hfind, ask_of_new hindex]
    exact ⟨rfl, h.push hfind⟩
  · rw [Registry.ask_of_held hfind, ask_of_held hindex]
    exact ⟨rfl, h⟩

theorem agrees (h : Mirrors k r) : Agrees k r where
  unions_eq := h.unions_eq
  lookup_eq name := by
    rcases h.cases_index name with ⟨hindex, hfind⟩ | ⟨position, entry, hindex, hposition, hfind⟩
    · rw [lookup, hindex, Registry.get?, hfind]
      rfl
    · have hunion : k.unions[position]? = some entry.union := by
        rw [← Array.getElem?_toList, h.unions_eq, Registry.unions, List.getElem?_map, hposition]
        rfl
      rw [lookup, hindex, Registry.get?, hfind]
      simp only [hunion, Option.map_some]
  source?_eq name := by
    rcases h.cases_index name with ⟨hindex, hfind⟩ | ⟨position, entry, hindex, -, hfind⟩
    · rw [source?, hindex, Registry.source?, hfind]
      rfl
    · rw [source?, hindex, Registry.source?, hfind]
      rfl
  answer_eq call := (h.ask call).1
  unchanged call hanswer := by
    rcases h.cases_index call.name with ⟨hindex, -⟩ | ⟨position, entry, hindex, -⟩
    · rw [ask_of_new hindex] at hanswer
      exact absurd rfl hanswer
    · rw [ask_of_held hindex]

end Mirrors

theorem mirrors_afterCalls (calls : List Registration) :
    Mirrors (afterCalls calls) (Registry.afterCalls calls) := by
  induction calls using List.reverseRecOn with
  | nil => exact .empty
  | append_singleton calls call ih =>
      rw [Registry.afterCalls_concat, afterCalls, List.foldl_append]
      exact (ih.ask call).2

end IndexedRegistry

/-- **A registry records the first registration of every name.** Whatever it is asked for, in
whatever order: its unions have distinct names and stand in the order in which the names were first
asked for; what is found for a name is the union and the metadata type of the first call; and the
next call is answered by it. A new name adds its union at the end. A name that was registered for the
same type adds nothing, and one that was registered for another type is a collision that names the
earlier type before the later one; neither changes anything. A registry that finds its unions by
position gives the same answers, and no position is ever out of range. -/
theorem registry_records_first (calls : List Registration) :
    (Registry.afterCalls calls).RecordsFirst calls
      ∧ (IndexedRegistry.afterCalls calls).Agrees (Registry.afterCalls calls) :=
  ⟨Registry.recordsFirst_afterCalls calls, (IndexedRegistry.mirrors_afterCalls calls).agrees⟩

/-- The earlier metadata type is named before the later one. -/
example : ((Registry.afterCalls [⟨⟨"LogLevel", ["info"]⟩, "logLevel"⟩]).ask
      ⟨⟨"LogLevel", ["debug"]⟩, "log_level"⟩).1
    = .error (.typeNameCollision "LogLevel" "metadata type \"logLevel\""
      "metadata type \"log_level\"") := rfl

end TelemetryTypes
