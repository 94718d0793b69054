import TelemetryTypes.Number.Double

/-!
# JSON values

Definition documents are JSON values whatever text they were read from. The entries of an object
are kept in the strict order of their keys, so a value has one form and visiting an object in
order is visiting it by key; `Json.Canonical` says so, and `Json.insert` keeps it. Numbers are
exact integers while they fit sixty-four bits and doubles otherwise, and are compared by value.
-/

namespace TelemetryTypes

/-- The bound of integers, `2 ^ 64`. -/
def Json.integerBound : Nat := 18446744073709551616

/-- The greatest magnitude of negative integers, `2 ^ 63`. -/
def Json.negativeBound : Nat := 9223372036854775808

inductive Json.Number where
  | integer (n : Int)
  | double (x : Double)
  deriving DecidableEq

inductive Json where
  | null
  | bool (b : Bool)
  | number (n : Json.Number)
  | string (s : String)
  | array (items : List Json)
  | object (entries : List (String × Json))

namespace Json

instance : Inhabited Json := ⟨.null⟩

/-! ### Objects -/

def lookup (key : String) (entries : List (String × Json)) : Option Json :=
  (entries.find? (·.1 == key)).map (·.2)

/-- Gives a key a value, in place of the one it has. Keeps the order of keys. -/
def insert (key : String) (value : Json) : List (String × Json) → List (String × Json)
  | [] => [(key, value)]
  | entry :: rest =>
    if key = entry.1 then (key, value) :: rest
    else if key < entry.1 then (key, value) :: entry :: rest
    else entry :: insert key value rest

/-- The object with the given entries; of two entries with one key the later one stays. -/
def ofEntries (entries : List (String × Json)) : Json :=
  .object (entries.foldl (fun kept entry => insert entry.1 entry.2 kept) [])

mutual

/-- Whether the keys of every object stand in strict order. -/
def Canonical : Json → Prop
  | .array items => CanonicalItems items
  | .object entries => entries.Pairwise (·.1 < ·.1) ∧ CanonicalEntries entries
  | _ => True

def CanonicalItems : List Json → Prop
  | [] => True
  | item :: rest => Canonical item ∧ CanonicalItems rest

def CanonicalEntries : List (String × Json) → Prop
  | [] => True
  | (_, value) :: rest => Canonical value ∧ CanonicalEntries rest

end

/-! ### Comparison by value -/

/-- Whether two numbers have the same value, whatever their form. -/
def Number.sameValue : Number → Number → Bool
  | .integer m, .integer n => m == n
  | .integer n, .double x => x.isInteger n
  | .double x, .integer n => x.isInteger n
  | .double x, .double y => x.sameValue y

mutual

/-- Whether two values are the same, numbers by value. -/
def sameValue : Json → Json → Bool
  | .null, .null => true
  | .bool a, .bool b => a == b
  | .number a, .number b => a.sameValue b
  | .string a, .string b => a == b
  | .array a, .array b => sameItems a b
  | .object a, .object b => sameEntries a b
  | _, _ => false

def sameItems : List Json → List Json → Bool
  | [], [] => true
  | a :: as, b :: bs => sameValue a b && sameItems as bs
  | _, _ => false

def sameEntries : List (String × Json) → List (String × Json) → Bool
  | [], [] => true
  | (k, a) :: as, (l, b) :: bs => k == l && sameValue a b && sameEntries as bs
  | _, _ => false

end

def distinct : List Json → Bool
  | [] => true
  | item :: rest => !rest.any (sameValue item) && distinct rest

end Json

end TelemetryTypes
