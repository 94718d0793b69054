import TelemetryTypes.Json.Basic
import TelemetryTypes.Number.Text
import TelemetryTypes.Text.Escaped

/-!
# The text of a JSON value

Two layouts: compact, without any blank, as values are quoted in messages, and indented by two
blanks a level, one entry a line, as a table is printed. A string escapes the quote, the backslash
and the controls, and keeps every other character.
-/

namespace TelemetryTypes.Json

def escapeChar (c : Char) : List Char :=
  if c = '"' then ['\\', '"']
  else if c = '\\' then ['\\', '\\']
  else if c = '\n' then ['\\', 'n']
  else if c = '\r' then ['\\', 'r']
  else if c = '\t' then ['\\', 't']
  else if c = '\x08' then ['\\', 'b']
  else if c = '\x0c' then ['\\', 'f']
  else if c.toNat < 0x20 then
    let digits := Text.hexDigits c.toNat
    ['\\', 'u'] ++ List.replicate (4 - digits.length) '0' ++ digits
  else [c]

def stringText (s : String) : String :=
  String.ofList ('"' :: (s.toList.flatMap escapeChar ++ ['"']))

def Number.text : Number → String
  | .integer n => toString n
  | .double x => x.text

/-! ### Compact -/

mutual

/-- The text of a value without blanks. -/
def compact : Json → String
  | .null => "null"
  | .bool b => if b then "true" else "false"
  | .number n => n.text
  | .string s => stringText s
  | .array items => "[" ++ ",".intercalate (compactItems items) ++ "]"
  | .object entries => "\x7b" ++ ",".intercalate (compactEntries entries) ++ "\x7d"

def compactItems : List Json → List String
  | [] => []
  | item :: rest => compact item :: compactItems rest

def compactEntries : List (String × Json) → List String
  | [] => []
  | (key, value) :: rest => (stringText key ++ ":" ++ compact value) :: compactEntries rest

end

/-! ### Indented -/

/-- A line break and the blanks of a level. -/
def newline (level : Nat) : String := "\n" ++ String.ofList (List.replicate (2 * level) ' ')

mutual

/-- The text of a value at a level of indentation. -/
def indented (level : Nat) : Json → String
  | .array [] => "[]"
  | .object [] => "\x7b\x7d"
  | .array items =>
    "[" ++ ",".intercalate (indentedItems (level + 1) items) ++ newline level ++ "]"
  | .object entries =>
    "\x7b" ++ ",".intercalate (indentedEntries (level + 1) entries) ++ newline level ++ "\x7d"
  | .null => "null"
  | .bool b => if b then "true" else "false"
  | .number n => n.text
  | .string s => stringText s

def indentedItems (level : Nat) : List Json → List String
  | [] => []
  | item :: rest => (newline level ++ indented level item) :: indentedItems level rest

def indentedEntries (level : Nat) : List (String × Json) → List String
  | [] => []
  | (key, value) :: rest =>
    (newline level ++ stringText key ++ ": " ++ indented level value) :: indentedEntries level rest

end

def pretty (value : Json) : String := indented 0 value

end TelemetryTypes.Json
