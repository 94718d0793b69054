import TelemetryTypes.Json.Decoder

/-!
# Primitive kinds

A metadata type that lists no values has one of four primitive kinds. A definition names its kind
by a word, which is only read when a metric needs the type, so that an unknown word can be reported
together with the metric. A type that names no kind is a string.
-/

namespace TelemetryTypes

inductive Kind where
  | string | int | double | boolean
  deriving DecidableEq, Repr

namespace Kind

/-- Every kind, in the order messages list them. -/
def all : List Kind := [string, int, double, boolean]

def word : Kind → String
  | string => "string"
  | int => "int"
  | double => "double"
  | boolean => "boolean"

def ofWord? (word : String) : Option Kind := all.find? (·.word == word)

def unknownMessage (word : String) : String := s!"unknown metadata kind: {word}"

/-- The kind of a word, or what is said of a word that names none. -/
def parse (word : String) : Except String Kind :=
  match ofWord? word with
  | some k => .ok k
  | none => .error (unknownMessage word)

/-- The kind of a type that declares the given word or none. -/
def declared? : Option String → Option Kind
  | none => some string
  | some word => (parse word).toOption

theorem mem_all (k : Kind) : k ∈ all := by cases k <;> decide

theorem ofWord?_word (k : Kind) : ofWord? k.word = some k := by cases k <;> decide

@[simp] theorem toOption_parse (word : String) : (parse word).toOption = ofWord? word := by
  rw [parse]
  cases ofWord? word <;> rfl

def toJson (k : Kind) : Json := .string k.word

private def variant (word : String) : Except Mismatch Kind :=
  match ofWord? word with
  | some k => .ok k
  | none => .error (.unknownVariant word (all.map Kind.word))

/-- Reads a kind from its word, or from an object that has the word as its only key and `null`
as the value. -/
def decode : Json.Decoder Kind
  | .string word => variant word
  | .object [(word, value)] => do
    let k ← variant word
    match value with
    | .null => .ok k
    | other => Json.Decoder.refuse "unit" other
  | .object _ => .error (.wrongValue "map" "map with a single key")
  | value => Json.Decoder.refuse "string or map" value

end Kind

end TelemetryTypes
