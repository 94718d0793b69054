import TelemetryTypes.Json.Printer
import TelemetryTypes.Schema.Basic

/-!
# Violations

Applying a schema to a value gives a list of violations, each with its place in the value, its
place in the schema and what is wrong there. A rule is applied on its own: whether it reports a
violation depends on the value it is applied to and on nothing else, and no violation keeps
another from being reported. The violations of parts come before those of the whole.
-/

namespace TelemetryTypes.Schema

/-- A step from a value to one of its parts. -/
inductive Step where
  | key (name : String)
  | index (i : Nat)
  deriving DecidableEq, Repr

/-- Escapes the two characters that have a meaning in a pointer. -/
def escapePointer (s : List Char) : List Char :=
  s.flatMap fun c => if c = '~' then ['~', '0'] else if c = '/' then ['~', '1'] else [c]

def Step.text : Step → String
  | key name => String.ofList (escapePointer name.toList)
  | index i => toString i

def pointer (segments : List String) : String := "".intercalate (segments.map ("/" ++ ·))

inductive Problem where
  | wrongType (value : Json) (expected : ValueType)
  | notListed (value : Json) (options : List String)
  | noMatch (text : String) (p : Pattern)
  | tooShort (text : String) (least : Nat)
  | tooFew (items : List Json) (least : Nat)
  | repeated (items : List Json)
  | missing (name : String)
  | unexpected (names : List String)
  | hasAll (names : List String) (value : Json)

namespace Problem

private def strings (names : List String) : Json := .array (names.map .string)

private def counted (n : Nat) (noun : String) : String :=
  if n = 1 then "1 " ++ noun else toString n ++ " " ++ noun ++ "s"

/-- The text of a problem. Values are shown as compact JSON. -/
def message : Problem → String
  | wrongType value expected =>
    value.compact ++ " is not of type " ++ Json.stringText expected.text
  | notListed value options => value.compact ++ " is not one of " ++ (strings options).compact
  | noMatch text p => Json.stringText text ++ " does not match \"" ++ p.text ++ "\""
  | tooShort text least =>
    Json.stringText text ++ " is shorter than " ++ counted least "character"
  | tooFew items least => (Json.array items).compact ++ " has less than " ++ counted least "item"
  | repeated items => (Json.array items).compact ++ " has non-unique elements"
  | missing name => Json.stringText name ++ " is a required property"
  | unexpected names =>
    "Additional properties are not allowed (" ++ ", ".intercalate (names.map ("'" ++ · ++ "'"))
      ++ (if names.length = 1 then " was" else " were") ++ " unexpected)"
  | hasAll names value =>
    (Json.object [("required", strings names)]).compact ++ " is not allowed for " ++ value.compact

end Problem

/-- A problem and its place, in the value and in the schema. -/
structure Violation where
  location : List Step
  rule : List String
  problem : Problem

namespace Violation

/-- The pointer to the value at fault, empty for the whole document. -/
def instancePath (v : Violation) : String := pointer (v.location.map Step.text)

def schemaPath (v : Violation) : String := pointer v.rule

def line (v : Violation) : String :=
  "  " ++ (if v.location.isEmpty then "(root)" else v.instancePath) ++ ": " ++ v.problem.message

end Violation

/-! ### Applying rules -/

/-- What a rule finds wrong with the value it is applied to. -/
def Rule.problems : Rule → Json → List Problem
  | type t, value => if t.has value then [] else [.wrongType value t]
  | enum options, value =>
    if options.any fun option => Json.sameValue (.string option) value then []
    else [.notListed value options]
  | pattern p, .string s => if p.holds s.toList then [] else [.noMatch s p]
  | minLength n, .string s => if n ≤ s.length then [] else [.tooShort s n]
  | minItems n, .array values => if n ≤ values.length then [] else [.tooFew values n]
  | uniqueItems, .array values => if Json.distinct values then [] else [.repeated values]
  | required names, .object entries =>
    (names.filter fun name => !entries.any (·.1 == name)).map .missing
  | notAll names, value =>
    let hasAll := match value with
      | .object entries => names.all fun name => entries.any (·.1 == name)
      | _ => true
    if hasAll then [.hasAll names value] else []
  | properties known, .object entries =>
    let unknown := (entries.map (·.1)).filter fun key => !known.any (·.1 == key)
    if unknown.isEmpty then [] else [.unexpected unknown]
  | _, _ => []

mutual

def violations (location : List Step) (rule : List String) :
    List Rule → Json → List Violation
  | [], _ => []
  | r :: rest, value =>
    ruleViolations location rule r value ++ violations location rule rest value

/-- The violations of a rule: those of the parts of the value, then its own. -/
def ruleViolations (location : List Step) (rule : List String) (r : Rule) (value : Json) :
    List Violation :=
  let own := (r.problems value).map (Violation.mk location (rule ++ [r.keyword]))
  match r, value with
  | .properties known, .object entries =>
    (entries.flatMap fun entry =>
      propertyViolations (location ++ [.key entry.1]) rule known entry.1 entry.2) ++ own
  | .items schema, .array values =>
    (values.zipIdx.flatMap fun (item, i) =>
      violations (location ++ [.index i]) (rule ++ ["items"]) schema item) ++ own
  | .reference schema, value => violations location (rule ++ ["$ref"]) schema value ++ own
  | _, _ => own

/-- The violations of the schema of a property, if the property is known. -/
def propertyViolations (location : List Step) (rule : List String) :
    List (String × List Rule) → String → Json → List Violation
  | [], _, _ => []
  | (name, schema) :: rest, key, value =>
    if name = key then violations location (rule ++ ["properties", name]) schema value
    else propertyViolations location rule rest key value

end

end TelemetryTypes.Schema
