import TelemetryTypes.Json.Decoder
import TelemetryTypes.Yaml.Token.Name

/-!
# Values of scalars

A plain scalar without a tag of its own is null, a boolean, an integer of at most 128 bits or a
number if it is written like one, and text otherwise. A number that starts with a zero and goes on
with digits is text, and so is one beyond the range of doubles. A core tag makes a scalar of any
style such a value or is an error.
-/

namespace TelemetryTypes.Yaml

inductive Value where
  | null
  | bool (b : Bool)
  | integer (n : Int)
  | double (x : Double)
  | infinity (negative : Bool)
  | notANumber
  | text (s : String)

/-! ### Numbers -/

/-- The number that digits of a radix write, if there is one and all are such digits. -/
def digits? (radix : Nat) (s : List Char) : Option Nat :=
  if s.isEmpty then none
  else s.foldlM (fun n c => do
    let digit ← hexDigit? c
    if digit < radix then some (radix * n + digit) else none) 0

def hasLeadingZero : List Char → Bool
  | '0' :: rest => !rest.isEmpty && rest.all Char.isDigit
  | _ => false

/-- The natural that a text without sign writes: in decimal or, after a mark, in another radix. -/
def natural? : List Char → Option Nat
  | '0' :: 'x' :: rest => digits? 16 rest
  | '0' :: 'o' :: rest => digits? 8 rest
  | '0' :: 'b' :: rest => digits? 2 rest
  | s => if hasLeadingZero s then none else digits? 10 s

/-- The bound of integers, `2 ^ 128`. -/
def integerBound : Nat := 340282366920938463463374607431768211456

/-- The greatest magnitude of negative integers, `2 ^ 127`. -/
def negativeBound : Nat := 170141183460469231731687303715884105728

/-- The integer of 128 bits that a text writes, unsigned unless it is negative. -/
def integer? : List Char → Option Int
  | '-' :: rest => (natural? rest).bind fun n => if n ≤ negativeBound then some (-n) else none
  | '+' :: rest => (natural? rest).bind fun n => if n < integerBound then some n else none
  | s => (natural? s).bind fun n => if n < integerBound then some n else none

/-- The decimal exponent that ends a number: none is zero. -/
def exponent? : List Char → Option Int
  | [] => some 0
  | c :: rest =>
    if c != 'e' && c != 'E' then none
    else match rest with
      | '-' :: digits => (digits? 10 digits).map fun n => -n
      | '+' :: digits => (digits? 10 digits).map (↑·)
      | digits => (digits? 10 digits).map (↑·)

/-- The double nearest to a decimal number, if it is in range. A number whose first digit stands
far from the point is not scaled, since it is out of range or rounds to zero. -/
def nearestDouble? (negative : Bool) (digits : List Char) (exponent : Int) : Option Double := do
  let digits := digits.dropWhile (· == '0')
  if digits.isEmpty then return Double.zero negative
  let point := digits.length + exponent
  if 309 < point then none
  if point < -323 then return Double.zero negative
  let significand ← digits? 10 digits
  let ratio := Double.scaleByTen significand 1 exponent
  Double.ofRatio? negative ratio.1 ratio.2

/-- The double that a text without sign writes: digits, a point among or around them if any, and
an exponent if any. -/
def decimal? (negative : Bool) (s : List Char) : Option Double := do
  let whole := s.takeWhile Char.isDigit
  let rest := s.dropWhile Char.isDigit
  let (fraction, rest) := match rest with
    | '.' :: tail => (tail.takeWhile Char.isDigit, tail.dropWhile Char.isDigit)
    | rest => ([], rest)
  if whole.isEmpty && fraction.isEmpty then none
  let exponent ← exponent? rest
  nearestDouble? negative (whole ++ fraction) (exponent - fraction.length)

/-- The number that a text writes. Only a number with a sign may be infinite with it; what is not
a number has none. -/
def number? (s : List Char) : Option Value :=
  let infinite (t : List Char) : Bool := [".inf", ".Inf", ".INF"].any (·.toList == t)
  if [".nan", ".NaN", ".NAN"].any (·.toList == s) then some .notANumber
  else match s with
    | '-' :: rest =>
      if infinite rest then some (.infinity true) else (decimal? true rest).map .double
    | '+' :: rest =>
      if infinite rest then some (.infinity false) else (decimal? false rest).map .double
    | rest => if infinite rest then some (.infinity false) else (decimal? false rest).map .double

/-! ### Values -/

def bool? (s : String) : Option Bool :=
  if s ∈ ["true", "True", "TRUE"] then some true
  else if s ∈ ["false", "False", "FALSE"] then some false
  else none

def isNull (s : String) : Bool := s ∈ ["null", "Null", "NULL", "~"]

def plainValue (s : String) : Value :=
  let chars := s.toList
  let unsigned := if chars.head?.any ['+', '-'].contains then chars.tail else chars
  if s.isEmpty || isNull s then .null
  else match bool? s with
    | some b => .bool b
    | none => match integer? chars with
      | some n => .integer n
      | none =>
        if hasLeadingZero unsigned then .text s else (number? chars).getD (.text s)

def coreTag (name : String) : String := "tag:yaml.org,2002:" ++ name

def scalarValue (tag : Option String) (style : Style) (s : String) : Except Mismatch Value :=
  let orRefuse (expected : String) (value : Option Value) : Except Mismatch Value :=
    match value with
    | some value => .ok value
    | none => .error (.wrongValue ("string " ++ Text.quoted s) expected)
  let ownTag := tag.any (·.toList.head? != some '!')
  if tag = some (coreTag "bool") then orRefuse "a boolean" ((bool? s).map .bool)
  else if tag = some (coreTag "int") then orRefuse "an integer" ((integer? s.toList).map .integer)
  else if tag = some (coreTag "float") then orRefuse "a float" (number? s.toList)
  else if tag = some (coreTag "null") then orRefuse "null" (if isNull s then some .null else none)
  else if style = .plain && !ownTag then .ok (plainValue s)
  else .ok (.text s)

def Value.description : Value → String
  | .null => "unit value"
  | .bool b => "boolean " ++ Mismatch.accented (if b then "true" else "false")
  | .integer n =>
    "integer " ++ Mismatch.accented (toString n)
      ++ (if n < -(Json.negativeBound : Int) then " as i128"
        else if (Json.integerBound : Int) ≤ n then " as u128" else "")
  | .double x => "floating point " ++ Mismatch.accented x.fullText
  | .infinity negative =>
    "floating point " ++ Mismatch.accented (if negative then "-inf" else "inf")
  | .notANumber => "floating point " ++ Mismatch.accented "NaN"
  | .text s => "string " ++ Text.quoted s

end TelemetryTypes.Yaml
