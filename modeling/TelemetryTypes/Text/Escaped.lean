import TelemetryTypes.Text.Basic
import TelemetryTypes.Text.Shapeless

/-!
# Texts in messages

Messages and log fields show a text between double quotes, with the quote, the backslash and the
common controls escaped and every other shapeless character given as its code point in braces. In a
path the single quote is escaped as well.

Some controls steer a terminal: bell, backspace, form feed, escape, delete, and those behind delete.
A message may hold text that comes from outside, so it shows such controls by their numbers. Other
controls, line breaks among them, stay as they are.
-/

namespace TelemetryTypes.Text

/-! ### Quoted texts -/

/-- The lower-case hexadecimal digits of a number, without leading zeros. -/
def hexDigits (n : Nat) : List Char := Nat.toDigits 16 n

/-- A character by its code point in braces. -/
def bracedCode (c : Char) : List Char := ['\\', 'u', '\x7b'] ++ hexDigits c.toNat ++ ['\x7d']

def escapeQuoted (c : Char) : List Char :=
  if c = '\x00' then ['\\', '0']
  else if c = '\t' then ['\\', 't']
  else if c = '\n' then ['\\', 'n']
  else if c = '\r' then ['\\', 'r']
  else if c = '"' then ['\\', '"']
  else if c = '\\' then ['\\', '\\']
  else if isShapeless c then bracedCode c
  else [c]

def escapeInPath (c : Char) : List Char := if c = '\'' then ['\\', '\''] else escapeQuoted c

def quotedBy (escape : Char → List Char) (s : String) : String :=
  String.ofList ('"' :: (s.toList.flatMap escape ++ ['"']))

def quoted (s : String) : String := quotedBy escapeQuoted s

def quotedPath (s : String) : String := quotedBy escapeInPath s

/-! ### Texts on terminals -/

/-- The ASCII controls that steer a terminal. -/
def steeringControls : List Char := ['\x07', '\x08', '\x0c', '\x1b', '\x7f']

def escapeSteering (c : Char) : List Char :=
  if c ∈ steeringControls then
    ['\\', 'x'] ++ (if c.toNat < 16 then ['0'] else []) ++ hexDigits c.toNat
  else if 0x80 ≤ c.toNat ∧ c.toNat ≤ 0x9F then bracedCode c
  else [c]

/-- A text that steers no terminal. -/
def unsteering (s : String) : String := String.ofList (s.toList.flatMap escapeSteering)

/-! ### Lines -/

/-- A line without the carriage return that belongs to its end. -/
def dropReturn (line : List Char) : List Char :=
  if line.getLast? = some '\r' then line.dropLast else line

/-- The lines of a text of which the last one ends with the text. A line ends with a line feed, or
with a carriage return and a line feed. -/
def lines (s : String) : List String :=
  (pieces s.toList).map fun line => String.ofList (dropReturn line)

end TelemetryTypes.Text
