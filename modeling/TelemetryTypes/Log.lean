import TelemetryTypes.Json.Printer
import TelemetryTypes.Text.Escaped

/-!
# Log entries

An entry has a level, a message and named fields. It is written as text or as JSON. In text the
message steers no terminal, a number and a bare field stand as they are, and any other field stands
between quotes.
-/

namespace TelemetryTypes

inductive LogLevel where
  | error | info | debug
  deriving DecidableEq

namespace LogLevel

def name : LogLevel → String
  | error => "ERROR"
  | info => "INFO"
  | debug => "DEBUG"

def isShown (verbosity : Nat) : LogLevel → Bool
  | error => true
  | info => 1 ≤ verbosity
  | debug => 2 ≤ verbosity

end LogLevel

inductive LogValue where
  | count (n : Nat)
  | bare (s : String)
  | quoted (s : String)
  deriving DecidableEq

namespace LogValue

def text : LogValue → String
  | count n => toString n
  | bare s => s
  | quoted s => Text.quoted s

def toJson : LogValue → Json
  | count n => .number (.integer n)
  | bare s => .string s
  | quoted s => .string s

end LogValue

structure LogEntry where
  level : LogLevel
  message : String
  fields : List (String × LogValue)
  deriving DecidableEq

namespace LogEntry

private def fieldsText (fields : List (String × LogValue)) : String :=
  String.join (fields.map fun f => " " ++ f.1 ++ "=" ++ f.2.text)

def text (e : LogEntry) : String :=
  e.level.name ++ " " ++ Text.unsteering e.message ++ fieldsText e.fields

/-- The lines of an entry as text; a message may break lines. -/
def lines (e : LogEntry) : List String := Text.lines e.text

def toJson (e : LogEntry) : Json :=
  .ofEntries [("level", .string e.level.name),
    ("fields", .ofEntries (("message", .string e.message) :: e.fields.map fun f =>
      (f.1, f.2.toJson)))]

end LogEntry

end TelemetryTypes
