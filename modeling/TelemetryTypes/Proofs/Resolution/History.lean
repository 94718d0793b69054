import TelemetryTypes.Proofs.Resolution.Success

/-!
# Histories of one registry

Names are asked for one after the other, and a request that fails does not end the history: the next
one meets the registry that it left. `failures_and_repeats_leave_no_trace` says that only the first
success of every name counts. The registry of a history is that of the names it has resolved, a
failure adds none to them and a repeated success one that is there, so the history goes on as if
neither had been asked for.
-/

namespace TelemetryTypes

open MetadataType (firstD isEnumerated resolveName)
open Resolving (answer)

/-- A name that is asked for, and what asks. -/
structure Request where
  name : String
  owner : String
  deriving DecidableEq

/-- A request, and what came of it. -/
structure Attempt where
  request : Request
  outcome : Except ResolutionError (MetadataType × TypeExpr)

namespace Attempt

def name (a : Attempt) : String := a.request.name

def succeeded (a : Attempt) : Bool := a.outcome.isOk

/-- The request failed because the name of a union is taken. -/
def Collides (a : Attempt) : Prop :=
  ∃ union existing incoming, a.outcome = .error (.typeNameCollision union existing incoming)

end Attempt

/-- What came of requests, and the registry that they leave. -/
structure History where
  attempts : List Attempt
  registry : Registry

namespace History

def cons (a : Attempt) (later : History) : History := ⟨a :: later.attempts, later.registry⟩

/-- Resolves names one after the other, whether the earlier ones could be resolved or not. -/
def ofRequests (types : List MetadataType) : Registry → List Request → History
  | r, [] => ⟨[], r⟩
  | r, q :: rest =>
    let (outcome, next) := answer (resolveName types q.name q.owner) r
    cons ⟨q, outcome⟩ (ofRequests types next rest)

/-- The attempts that neither failed nor repeat a name that was resolved by an earlier one. -/
def lasting (h : History) : List Attempt := keepFirst Attempt.name (h.attempts.filter (·.succeeded))

/-- What can be said of the requests of a resolver, whatever they are and in whatever order. -/
structure LeavesNoTrace (types : List MetadataType) (requests : List Request) (h : History) :
    Prop where
  attempted : h.attempts.map Attempt.request = requests
  /-- Without the failed and the repeated ones, every other request comes to what it came to, and
  the registry is the same in the end. -/
  replayed : ofRequests types .empty (h.lasting.map Attempt.request) = ⟨h.lasting, h.registry⟩
  collides_iff : ∀ before a after, h.attempts = before ++ a :: after →
    (a.Collides ↔ isEnumerated types a.name = true ∧ ∃ earlier ∈ before,
      earlier.succeeded = true ∧ isEnumerated types earlier.name = true
        ∧ earlier.name ≠ a.name ∧ Text.pascalCase earlier.name = Text.pascalCase a.name)
  /-- Whatever stands between them, two successes of one name give the same. -/
  settled : ∀ a ∈ h.attempts, ∀ b ∈ h.attempts, a.name = b.name →
    ∀ v w, a.outcome = .ok v → b.outcome = .ok w → v = w

variable {types : List MetadataType} {names : List String}

/-! ### Single requests -/

theorem ofRequests_of_unresolved {q : Request} {e : ResolutionError}
    (hfault : unresolved? types names q.name q.owner = some e) (rest : List Request) :
    ofRequests types (.ofNames types names) (q :: rest)
      = cons ⟨q, .error e⟩ (ofRequests types (.ofNames types names) rest) := by
  simp only [ofRequests, answer_resolveName, hfault]

theorem ofRequests_of_resolved {q : Request}
    (hfault : unresolved? types names q.name q.owner = none) (rest : List Request) :
    ofRequests types (.ofNames types names) (q :: rest)
      = cons ⟨q, .ok (firstD types q.name, (firstD types q.name).target)⟩
          (ofRequests types (.ofNames types (names ++ [q.name])) rest) := by
  simp only [ofRequests, answer_resolveName, hfault]

theorem map_request_ofRequests (r : Registry) (requests : List Request) :
    (ofRequests types r requests).attempts.map Attempt.request = requests := by
  induction requests generalizing r with
  | nil => rfl
  | cons q rest ih => exact congrArg (q :: ·) (ih _)

/-- A success gives what the first type of its name gives, whatever came before it. -/
theorem outcome_of_mem {r : Registry} {requests : List Request} {a : Attempt}
    {v : MetadataType × TypeExpr} (ha : a ∈ (ofRequests types r requests).attempts)
    (hv : a.outcome = .ok v) : v = (firstD types a.name, (firstD types a.name).target) := by
  induction requests generalizing r with
  | nil => cases ha
  | cons q rest ih =>
      rcases List.mem_cons.mp ha with rfl | hlater
      · exact (ensures_resolveName q.name q.owner r v _ (Prod.ext hv rfl)).1
      · exact ih hlater

/-! ### Leaving requests out -/

/-- The requests that last come to the same by themselves. The names that were resolved before them
are the ones that the registry holds, and the ones that the walk has seen. -/
theorem ofRequests_lasting {seen : List String} (hseen : ∀ name, name ∈ seen ↔ name ∈ names)
    (requests : List Request) :
    let h := ofRequests types (.ofNames types names) requests
    let lasting := keepFirstFrom Attempt.name seen (h.attempts.filter (·.succeeded))
    ofRequests types (.ofNames types names) (lasting.map Attempt.request)
      = ⟨lasting, h.registry⟩ := by
  induction requests generalizing names seen with
  | nil => rfl
  | cons q rest ih =>
      cases hfault : unresolved? types names q.name q.owner with
      | some e =>
          rw [ofRequests_of_unresolved hfault]
          exact ih hseen
      | none =>
          rw [ofRequests_of_resolved hfault]
          intro h lasting
          by_cases hrepeated : q.name ∈ names
          · have hlasting : lasting = _ := if_pos ((hseen q.name).mpr hrepeated)
            simp only [h, hlasting, ofNames_concat_of_mem hrepeated]
            exact ih hseen
          · have hlasting : lasting = _ := if_neg (mt (hseen q.name).mp hrepeated)
            have hseen' : ∀ name, name ∈ q.name :: seen ↔ name ∈ names ++ [q.name] := by
              intro name
              rw [List.mem_cons, List.mem_append, List.mem_singleton, hseen, or_comm]
            rw [hlasting, List.map_cons, ofRequests_of_resolved hfault]
            exact congrArg (cons _) (ih hseen')

/-! ### Names in the way -/

/-- The names that some attempts resolved. -/
def resolvedNames (attempts : List Attempt) : List String :=
  (attempts.filter (·.succeeded)).map Attempt.name

theorem mem_resolvedNames {attempts : List Attempt} {name : String} :
    name ∈ resolvedNames attempts
      ↔ ∃ earlier ∈ attempts, earlier.succeeded = true ∧ earlier.name = name := by
  simp only [resolvedNames, List.mem_map, List.mem_filter, and_assoc]

/-- Every request meets the registry of the names that were resolved before it, and those keep
apart. -/
theorem outcome_of_attempts (hapart : Apart types names) {requests : List Request}
    {before after : List Attempt} {a : Attempt}
    (hattempts : (ofRequests types (.ofNames types names) requests).attempts
      = before ++ a :: after) :
    Apart types (names ++ resolvedNames before) ∧ a.outcome
      = (answer (resolveName types a.name a.request.owner)
          (.ofNames types (names ++ resolvedNames before))).1 := by
  induction before generalizing names requests with
  | nil =>
      have hnone : names ++ resolvedNames [] = names := List.append_nil names
      rw [hnone]
      cases requests with
      | nil => cases hattempts
      | cons q rest =>
          cases hattempts
          exact ⟨hapart, rfl⟩
  | cons b before ih =>
      cases requests with
      | nil => cases hattempts
      | cons q rest =>
          cases hfault : unresolved? types names q.name q.owner with
          | some e =>
              rw [ofRequests_of_unresolved hfault] at hattempts
              obtain ⟨rfl, hlater⟩ := List.cons.inj hattempts
              exact ih hapart hlater
          | none =>
              rw [ofRequests_of_resolved hfault] at hattempts
              obtain ⟨rfl, hlater⟩ := List.cons.inj hattempts
              have hapart' := ((unresolved?_eq_none_iff hapart q.name q.owner).mp hfault).2
              have hnames := ih hapart' hlater
              rwa [List.append_assoc] at hnames

/-- Among names that keep apart, a request collides exactly where another name holds its union. -/
theorem collides_iff_of_outcome (hapart : Apart types names) {a : Attempt}
    (houtcome : a.outcome
      = (answer (resolveName types a.name a.request.owner) (.ofNames types names)).1) :
    a.Collides ↔ isEnumerated types a.name = true ∧ ∃ other ∈ names,
      isEnumerated types other = true ∧ other ≠ a.name
        ∧ Text.pascalCase other = Text.pascalCase a.name := by
  rw [answer_resolveName] at houtcome
  constructor
  · rintro ⟨union, existing, incoming, herror⟩
    rw [herror] at houtcome
    cases hfault : unresolved? types names a.name a.request.owner with
    | none => simp [hfault] at houtcome
    | some e =>
        rw [hfault] at houtcome
        obtain rfl := Except.error.inj houtcome
        rcases cases_of_unresolved? hfault with
          ⟨_, hother⟩ | ⟨_, _, _, _, _, _, hother⟩ | ⟨henum, hclash⟩
        · cases hother
        · cases hother
        · obtain ⟨other, hmem, hheld, hne, hcase, _⟩ :=
            (clash?_eq_some_iff hapart a.name _).mp hclash
          exact ⟨henum, other, hmem, hheld, hne, hcase⟩
  · rintro ⟨henum, other, hmem, hheld, hne, hcase⟩
    have hclash := (clash?_eq_some_iff hapart a.name _).mpr ⟨other, hmem, hheld, hne, hcase, rfl⟩
    rw [unresolved?_of_isEnumerated henum, hclash] at houtcome
    exact ⟨_, _, _, houtcome⟩

end History

/-- **Failures and repeats leave no trace.** Whatever names are asked for one after the other, the
requests that failed and those that repeat a name which had been resolved can be left out: the
others come to what they came to, and the registry is the same in the end. A name is refused for its
union exactly when another one with that union was resolved before it, and every success of a name
gives the same. -/
theorem failures_and_repeats_leave_no_trace (types : List MetadataType) (requests : List Request) :
    History.LeavesNoTrace types requests (.ofRequests types .empty requests) where
  attempted := History.map_request_ofRequests .empty requests
  replayed := by
    have hnone : ∀ name : String, name ∈ [] ↔ name ∈ [] := fun _ => Iff.rfl
    exact History.ofRequests_lasting hnone requests
  collides_iff before a after hattempts := by
    have hempty : Apart types [] := fun _ hmem => nomatch hmem
    obtain ⟨hapart, houtcome⟩ := History.outcome_of_attempts hempty hattempts
    rw [History.collides_iff_of_outcome hapart houtcome]
    simp only [List.nil_append, History.mem_resolvedNames]
    constructor
    · rintro ⟨henum, other, ⟨earlier, hmem, hok, rfl⟩, hholds⟩
      exact ⟨henum, earlier, hmem, hok, hholds⟩
    · rintro ⟨henum, earlier, hmem, hok, hholds⟩
      exact ⟨henum, earlier.name, ⟨earlier, hmem, hok, rfl⟩, hholds⟩
  settled a ha b hb hname v w hv hw := by
    rw [History.outcome_of_mem ha hv, History.outcome_of_mem hb hw, hname]

/-- What lasts of a collision, a repeat, a name nobody declares and a kind that is none. -/
example :
    let types := [.enumerated "mode" ["Image"], .enumerated "Mode" ["Fast"],
      .primitive "size" "float", .primitive "count" "int"]
    let h := History.ofRequests types .empty [⟨"mode", "m"⟩, ⟨"Mode", "m"⟩, ⟨"size", "m"⟩,
      ⟨"mode", "n"⟩, ⟨"nope", "n"⟩, ⟨"count", "n"⟩]
    h.lasting.map Attempt.name = ["mode", "count"] := by rfl

end TelemetryTypes
