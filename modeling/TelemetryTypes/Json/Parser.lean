import TelemetryTypes.Json.Numeral
import TelemetryTypes.Text.Basic

/-!
# Reading JSON text

A reader takes the characters that are left and returns a value and what follows it. Where a text
is malformed the reader says why and how many bytes were left behind the fault, from which the
position follows once the whole text is known. Of the nested brackets of a text at most
`maxNesting` may be open at once; the readers recurse on that allowance, and within a bracket on
the characters left.
-/

namespace TelemetryTypes.Json

inductive Malformation where
  | endInValue | endInList | endInObject | endInString
  | noValue | noWord | noColon | noListEnd | noObjectEnd
  | trailingComma | trailingText | keyNotString
  | badNumber | outOfRange | badEscape | loneSurrogate | brokenEscape | control
  | tooDeep
  deriving DecidableEq

def Malformation.message : Malformation → String
  | endInValue => "EOF while parsing a value"
  | endInList => "EOF while parsing a list"
  | endInObject => "EOF while parsing an object"
  | endInString => "EOF while parsing a string"
  | noValue => "expected value"
  | noWord => "expected ident"
  | noColon => "expected `:`"
  | noListEnd => "expected `,` or `]`"
  | noObjectEnd => "expected `,` or `\x7d`"
  | trailingComma => "trailing comma"
  | trailingText => "trailing characters"
  | keyNotString => "key must be a string"
  | badNumber => "invalid number"
  | outOfRange => "number out of range"
  | badEscape => "invalid escape"
  | loneSurrogate => "lone leading surrogate in hex escape"
  | brokenEscape => "unexpected end of hex escape"
  | control => "control character (\\u0000-\\u001F) found while parsing a string"
  | tooDeep => "recursion limit exceeded"

/-- A malformation, and the number of bytes behind the one at fault. -/
structure Fault where
  cause : Malformation
  behind : Nat

/-- What a reader returns: a fault, or a value and what follows it. -/
abbrev Attempt := Except Fault

/-- A fault `past` bytes into what is left, or at the end if that comes first. -/
def faultAt {α : Type} (cause : Malformation) (s : List Char) (past : Nat) : Except Fault α :=
  .error ⟨cause, Text.byteCount s - past⟩

/-- A fault at the next byte, or at the end under a cause of its own. -/
def faultNext {α : Type} (cause atEnd : Malformation) (s : List Char) : Except Fault α :=
  faultAt (if s.isEmpty then atEnd else cause) s 1

def isSpace (c : Char) : Bool := c == ' ' || c == '\n' || c == '\t' || c == '\r'

def skipSpace (s : List Char) : List Char := s.dropWhile isSpace

/-! ### Words and numerals -/

def word (value : Json) : List Char → List Char → Attempt (Json × List Char)
  | [], s => .ok (value, s)
  | w :: ws, c :: rest => if c = w then word value ws rest else faultAt .noWord (c :: rest) 1
  | _ :: _, [] => faultAt .endInValue [] 0

/-- The double of a sign, a significand and an exponent, before what is left. -/
def scaled (negative : Bool) (significand : Nat) (exponent : Int) (s : List Char) :
    Attempt (Json × List Char) :=
  match Number.ofParts? negative significand exponent with
  | some n => .ok (.number n, s)
  | none => faultAt .outOfRange s 0

/-- The bound of exponents as written, `2 ^ 31`. -/
def exponentBound : Nat := 2147483648

/-- Reads an exponent after its letter. An exponent beyond all bounds stands for zero if it is
negative or scales zero. -/
def exponentPart (negative : Bool) (significand : Nat) (scale : Int) (s : List Char) :
    Attempt (Json × List Char) :=
  let (down, s) := match s with
    | '+' :: rest => (false, rest)
    | '-' :: rest => (true, rest)
    | s => (false, s)
  match s with
  | [] => faultAt .endInValue [] 0
  | c :: _ =>
    if !c.isDigit then faultAt .badNumber s 1
    else
      let (value, _, rest) := takeDigits exponentBound 0 0 s
      match rest with
      | d :: tail =>
        if !d.isDigit then
          scaled negative significand (scale + if down then -(value : Int) else value) rest
        else if significand ≠ 0 && !down then faultAt .outOfRange tail 0
        else .ok (.number (.double (.zero negative)), tail.dropWhile Char.isDigit)
      | [] => scaled negative significand (scale + if down then -(value : Int) else value) rest

def exponent? (negative : Bool) (significand : Nat) (scale : Int) (s : List Char) :
    Attempt (Json × List Char) :=
  match s with
  | c :: rest =>
    if c = 'e' || c = 'E' then exponentPart negative significand scale rest
    else scaled negative significand scale s
  | [] => scaled negative significand scale s

/-- Reads a fraction after its point. Digits that no longer fit the significand are dropped. -/
def fractionPart (negative : Bool) (significand : Nat) (scale : Int) (s : List Char) :
    Attempt (Json × List Char) :=
  match s with
  | [] => faultAt .endInValue [] 0
  | c :: _ =>
    if !c.isDigit then faultAt .badNumber s 1
    else
      let (value, count, rest) := takeDigits integerBound significand 0 s
      exponent? negative value (scale - count) (rest.dropWhile Char.isDigit)

def numeral (negative : Bool) (s : List Char) : Attempt (Json × List Char) :=
  match s with
  | [] => faultAt .endInValue [] 0
  | c :: tail =>
    if !c.isDigit then faultAt .badNumber s 1
    else if c = '0' && (tail.head?.any Char.isDigit) then faultAt .badNumber tail 1
    else
      let (value, _, fitting) := takeDigits integerBound 0 0 s
      let rest := fitting.dropWhile Char.isDigit
      let dropped := fitting.length - rest.length
      match rest with
      | '.' :: fraction => fractionPart negative value dropped fraction
      | 'e' :: power => exponentPart negative value dropped power
      | 'E' :: power => exponentPart negative value dropped power
      | _ =>
        if dropped = 0 then .ok (.number (.ofMagnitude negative value), rest)
        else scaled negative value dropped rest

/-! ### Strings -/

def hexValue? (c : Char) : Option Nat :=
  if c.isDigit then some (c.toNat - '0'.toNat)
  else if 'a' ≤ c && c ≤ 'f' then some (c.toNat - 'a'.toNat + 10)
  else if 'A' ≤ c && c ≤ 'F' then some (c.toNat - 'A'.toNat + 10)
  else none

def hexUnit? : List Char → Option (Nat × List Char)
  | a :: b :: c :: d :: rest => do
    let a ← hexValue? a
    let b ← hexValue? b
    let c ← hexValue? c
    let d ← hexValue? d
    some (((a * 16 + b) * 16 + c) * 16 + d, rest)
  | _ => none

def hexUnit (s : List Char) : Attempt (Nat × List Char) :=
  match hexUnit? s with
  | some reading => .ok reading
  | none => if Text.byteCount s < 4 then faultAt .endInString [] 0 else faultAt .badEscape s 4

/-- Reads an escape by code after its `u`. A code above the basic plane is written as two
surrogates, the leading one first. -/
def codeEscape (s : List Char) : Attempt (Char × List Char) := do
  let (lead, s) ← hexUnit s
  if 0xDC00 ≤ lead && lead ≤ 0xDFFF then faultAt .loneSurrogate s 0
  else if lead < 0xD800 || 0xDBFF < lead then .ok (Char.ofNat lead, s)
  else
    let '\\' :: s := s | faultNext .brokenEscape .endInString s
    let 'u' :: s := s | faultNext .brokenEscape .endInString s
    let (trail, s) ← hexUnit s
    if trail < 0xDC00 || 0xDFFF < trail then faultAt .loneSurrogate s 0
    else .ok (Char.ofNat (0x10000 + (lead - 0xD800) * 0x400 + (trail - 0xDC00)), s)

def escape (s : List Char) : Attempt (Char × List Char) :=
  match s with
  | [] => faultAt .endInString [] 0
  | '"' :: rest => .ok ('"', rest)
  | '\\' :: rest => .ok ('\\', rest)
  | '/' :: rest => .ok ('/', rest)
  | 'b' :: rest => .ok ('\x08', rest)
  | 'f' :: rest => .ok ('\x0c', rest)
  | 'n' :: rest => .ok ('\n', rest)
  | 'r' :: rest => .ok ('\r', rest)
  | 't' :: rest => .ok ('\t', rest)
  | 'u' :: rest => codeEscape rest
  | _ => faultAt .badEscape s 1

/-- Reads a string after its opening quote; `done` are the characters so far, the last first. -/
def stringBody (done : List Char) (s : List Char) : Attempt (String × List Char) :=
  match s with
  | [] => faultAt .endInString [] 0
  | '"' :: rest => .ok (String.ofList done.reverse, rest)
  | '\\' :: rest =>
    match escape rest with
    | .error fault => .error fault
    | .ok (c, tail) =>
      if _shorter : tail.length < rest.length + 1 then stringBody (c :: done) tail
      else faultAt .badEscape s 1
  | c :: rest => if c.toNat < 0x20 then faultAt .control s 1 else stringBody (c :: done) rest
termination_by s.length

/-! ### Values -/

/-- Reads the items after the first of an array, up to its bracket. -/
def items (item : List Char → Attempt (Json × List Char)) (done : List Json) (s : List Char) :
    Attempt (List Json × List Char) :=
  match skipSpace s with
  | [] => faultAt .endInList [] 0
  | ']' :: rest => .ok (done.reverse, rest)
  | ',' :: rest =>
    match skipSpace rest with
    | [] => faultAt .endInValue [] 0
    | ']' :: tail => faultAt .trailingComma (']' :: tail) 1
    | next =>
      match item next with
      | .error fault => .error fault
      | .ok (value, tail) =>
        if _shorter : tail.length < s.length then items item (value :: done) tail
        else faultAt .noValue tail 1
  | other => faultAt .noListEnd other 1
termination_by s.length

def arrayBody (item : List Char → Attempt (Json × List Char)) (s : List Char) :
    Attempt (Json × List Char) :=
  match skipSpace s with
  | [] => faultAt .endInList [] 0
  | ']' :: rest => .ok (.array [], rest)
  | first => do
    let (value, rest) ← item first
    let (values, rest) ← items item [value] rest
    .ok (.array values, rest)

def entry (item : List Char → Attempt (Json × List Char)) (s : List Char) :
    Attempt ((String × Json) × List Char) :=
  match s with
  | '"' :: rest => do
    let (key, rest) ← stringBody [] rest
    match skipSpace rest with
    | [] => faultAt .endInObject [] 0
    | ':' :: rest =>
      let (value, rest) ← item rest
      .ok ((key, value), rest)
    | other => faultAt .noColon other 1
  | _ => faultAt .keyNotString s 1

def entries (item : List Char → Attempt (Json × List Char)) (done : List (String × Json))
    (s : List Char) : Attempt (List (String × Json) × List Char) :=
  match skipSpace s with
  | [] => faultAt .endInObject [] 0
  | '\x7d' :: rest => .ok (done.reverse, rest)
  | ',' :: rest =>
    match skipSpace rest with
    | [] => faultAt .endInValue [] 0
    | '\x7d' :: tail => faultAt .trailingComma ('\x7d' :: tail) 1
    | next =>
      match entry item next with
      | .error fault => .error fault
      | .ok (value, tail) =>
        if _shorter : tail.length < s.length then entries item (value :: done) tail
        else faultAt .noValue tail 1
  | other => faultAt .noObjectEnd other 1
termination_by s.length

def objectBody (item : List Char → Attempt (Json × List Char)) (s : List Char) :
    Attempt (Json × List Char) :=
  match skipSpace s with
  | [] => faultAt .endInObject [] 0
  | '\x7d' :: rest => .ok (.object [], rest)
  | first => do
    let (head, rest) ← entry item first
    let (tail, rest) ← entries item [head] rest
    .ok (.ofEntries tail, rest)

/-- Reads a value that opens at most `depth` brackets within each other. -/
def value (depth : Nat) (s : List Char) : Attempt (Json × List Char) :=
  let s := skipSpace s
  match s with
  | [] => faultAt .endInValue [] 0
  | 'n' :: rest => word .null ['u', 'l', 'l'] rest
  | 't' :: rest => word (.bool true) ['r', 'u', 'e'] rest
  | 'f' :: rest => word (.bool false) ['a', 'l', 's', 'e'] rest
  | '-' :: rest => numeral true rest
  | '"' :: rest => do
    let (text, rest) ← stringBody [] rest
    .ok (.string text, rest)
  | '[' :: rest =>
    match depth with
    | 0 => faultAt .tooDeep s 1
    | depth + 1 => arrayBody (value depth) rest
  | '\x7b' :: rest =>
    match depth with
    | 0 => faultAt .tooDeep s 1
    | depth + 1 => objectBody (value depth) rest
  | c :: _ => if c.isDigit then numeral false s else faultAt .noValue s 1

def maxNesting : Nat := 127

def document (s : List Char) : Attempt Json := do
  let (value, rest) ← value maxNesting s
  let rest := skipSpace rest
  if rest.isEmpty then .ok value else faultAt .trailingText rest 1

structure ParseError where
  cause : Malformation
  position : Text.Position

def ParseError.message (e : ParseError) : String :=
  e.cause.message ++ " at " ++ e.position.message

def parse (text : String) : Except ParseError Json :=
  let s := text.toList
  match document s with
  | .ok value => .ok value
  | .error fault =>
    .error ⟨fault.cause, Text.positionAfter (Text.byteCount s - fault.behind) s⟩

end TelemetryTypes.Json
