import TelemetryTypes.Json.Basic

/-!
# Schemas

A schema is a list of rules for one value. Most rules judge the value they are applied to; the rules
on items and on properties pass the parts of a value on to further schemas. Each rule is named by a
keyword, and a place in a schema is the sequence of keywords, property names and references that
leads to it.

Names are held to patterns: sequences of character classes, each of which stands for one character,
any number of them, or at least one. A pattern describes the whole text, so a line feed at its end
counts like any other character.
-/

namespace TelemetryTypes.Schema

/-! ### Name patterns -/

inductive CharClass where
  | letter | alphanumeric | wordChar | underscore
  deriving DecidableEq, Repr

namespace CharClass

def has : CharClass → Char → Bool
  | letter, c => c.isAlpha
  | alphanumeric, c => c.isAlphanum
  | wordChar, c => c.isAlphanum || c == '_'
  | underscore, c => c == '_'

def text : CharClass → String
  | letter => "[a-zA-Z]"
  | alphanumeric => "[a-zA-Z0-9]"
  | wordChar => "[a-zA-Z0-9_]"
  | underscore => "_"

end CharClass

/-- A class and how many characters of it. -/
inductive Part where
  | one (c : CharClass)
  | any (c : CharClass)
  | some (c : CharClass)
  deriving DecidableEq, Repr

def Part.text : Part → String
  | one c => c.text
  | any c => c.text ++ "*"
  | some c => c.text ++ "+"

abbrev Pattern := List Part

namespace Pattern

def text (p : Pattern) : String := "^" ++ "".intercalate (p.map Part.text) ++ "$"

/-- Whether the characters from here on are of a class up to a place from which `rest` holds. -/
def anyThen (c : CharClass) (rest : List Char → Bool) : List Char → Bool
  | [] => rest []
  | x :: xs => rest (x :: xs) || (c.has x && anyThen c rest xs)

def holds : Pattern → List Char → Bool
  | [], s => s.isEmpty
  | .one _ :: _, [] => false
  | .one c :: parts, x :: xs => c.has x && holds parts xs
  | .any c :: parts, s => anyThen c (holds parts) s
  | .some _ :: _, [] => false
  | .some c :: parts, x :: xs => c.has x && anyThen c (holds parts) xs

end Pattern

/-! ### Rules -/

inductive ValueType where
  | object | array | string | boolean
  deriving DecidableEq, Repr

namespace ValueType

def text : ValueType → String
  | object => "object"
  | array => "array"
  | string => "string"
  | boolean => "boolean"

def has : ValueType → Json → Bool
  | object, .object _ => true
  | array, .array _ => true
  | string, .string _ => true
  | boolean, .bool _ => true
  | _, _ => false

end ValueType

/-- A rule for a value. Rules on properties, items and texts say nothing of values that have
none. -/
inductive Rule where
  | type (t : ValueType)
  | enum (options : List String)
  | pattern (p : Pattern)
  | minLength (n : Nat)
  | minItems (n : Nat)
  | uniqueItems
  | required (names : List String)
  /-- The value is an object that lacks one of the properties. -/
  | notAll (names : List String)
  /-- The object has the listed properties only, each of which obeys its schema. -/
  | properties (known : List (String × List Rule))
  | items (schema : List Rule)
  /-- The value obeys a schema that is defined elsewhere. -/
  | reference (schema : List Rule)

/-- The keyword of a rule. The rule on properties is named for what it refuses. -/
def Rule.keyword : Rule → String
  | type _ => "type"
  | enum _ => "enum"
  | pattern _ => "pattern"
  | minLength _ => "minLength"
  | minItems _ => "minItems"
  | uniqueItems => "uniqueItems"
  | required _ => "required"
  | notAll _ => "not"
  | properties _ => "additionalProperties"
  | items _ => "items"
  | reference _ => "$ref"

end TelemetryTypes.Schema
