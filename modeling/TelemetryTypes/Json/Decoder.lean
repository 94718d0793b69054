import TelemetryTypes.Json.Printer

/-!
# Decoding JSON into records

A decoder reads a value of one type or says what is wrong first. A record is read from an object
or, field by field in the order of its declaration, from an array; an optional field takes `null`
for absent.
-/

namespace TelemetryTypes

inductive Mismatch where
  | wrongType (found expected : String)
  | wrongValue (found expected : String)
  | missingField (name : String)
  | unknownField (name : String) (known : List String)
  | unknownVariant (name : String) (known : List String)
  | wrongLength (count : Nat) (expected : String)
  deriving DecidableEq

namespace Mismatch

def accented (name : String) : String := "`" ++ name ++ "`"

private def oneOf (known : List String) : String :=
  "expected one of " ++ ", ".intercalate (known.map accented)

def message : Mismatch → String
  | wrongType found expected => s!"invalid type: {found}, expected {expected}"
  | wrongValue found expected => s!"invalid value: {found}, expected {expected}"
  | missingField name => s!"missing field {accented name}"
  | unknownField name known => s!"unknown field {accented name}, {oneOf known}"
  | unknownVariant name known => s!"unknown variant {accented name}, {oneOf known}"
  | wrongLength count expected => s!"invalid length {count}, expected {expected}"

end Mismatch

namespace Json

/-- What a value is, as messages name it. -/
def description : Json → String
  | .null => "null"
  | .bool b => "boolean " ++ Mismatch.accented (if b then "true" else "false")
  | .number (.integer n) => "integer " ++ Mismatch.accented (toString n)
  | .number (.double x) => "floating point " ++ Mismatch.accented x.text
  | .string s => "string " ++ Text.quoted s
  | .array _ => "sequence"
  | .object _ => "map"

abbrev Decoder (α : Type) := Json → Except Mismatch α

namespace Decoder

def refuse {α : Type} (expected : String) (value : Json) : Except Mismatch α :=
  .error (.wrongType value.description expected)

def string : Decoder String
  | .string s => .ok s
  | value => refuse "a string" value

def boolean : Decoder Bool
  | .bool b => .ok b
  | value => refuse "a boolean" value

def list {α : Type} (item : Decoder α) : Decoder (List α)
  | .array items => items.mapM item
  | value => refuse "a sequence" value

/-- Reads `null` as absent. -/
def optional {α : Type} (item : Decoder α) : Decoder (Option α)
  | .null => .ok none
  | value => some <$> item value

/-! ### Fields of an object -/

/-- Reads a field that may be left out. -/
def fieldD {α : Type} (default : α) (item : Decoder α) (key : String)
    (entries : List (String × Json)) : Except Mismatch α :=
  match lookup key entries with
  | none => .ok default
  | some value => item value

def field? {α : Type} (item : Decoder α) (key : String) (entries : List (String × Json)) :
    Except Mismatch (Option α) :=
  match lookup key entries with
  | none => .ok none
  | some value => some <$> item value

def present {α : Type} (key : String) : Option α → Except Mismatch α
  | none => .error (.missingField key)
  | some value => .ok value

/-! ### Elements of an array -/

/-- Reads the first of the remaining elements; `read` of them were read before it. -/
def element {α : Type} (item : Decoder α) (read : Nat) (expected : String) :
    List Json → Except Mismatch (α × List Json)
  | [] => .error (.wrongLength read expected)
  | value :: rest => (·, rest) <$> item value

/-- Reads the first of the remaining elements, which may be left off the end. -/
def elementD {α : Type} (default : α) (item : Decoder α) :
    List Json → Except Mismatch (α × List Json)
  | [] => .ok (default, [])
  | value :: rest => (·, rest) <$> item value

/-- Refuses elements left over from an array of the given length. -/
def finish (count : Nat) : List Json → Except Mismatch Unit
  | [] => .ok ()
  | _ :: _ => .error (.wrongLength count "fewer elements in array")

end Decoder

end Json

end TelemetryTypes
