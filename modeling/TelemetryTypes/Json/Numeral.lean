import TelemetryTypes.Json.Basic

/-!
# Numerals

A numeral without fraction and exponent that fits sixty-four bits is an integer. Every other one
is a double, found in two roundings: the leading digits that fit sixty-four bits are rounded to a
double, and this is multiplied or divided by a power of ten that is itself rounded. Minus zero is a
double, since integers have one zero.
-/

namespace TelemetryTypes.Json

def digitValue (c : Char) : Nat := c.toNat - '0'.toNat

/-- Appends leading digits to a number while it stays below a bound. Returns the number, how many
digits it took, and what follows. -/
def takeDigits (bound : Nat) : Nat → Nat → List Char → Nat × Nat × List Char
  | value, count, [] => (value, count, [])
  | value, count, c :: rest =>
    let next := 10 * value + digitValue c
    if c.isDigit && next < bound then takeDigits bound next (count + 1) rest
    else (value, count, c :: rest)

def Number.ofMagnitude (negative : Bool) (n : Nat) : Number :=
  if !negative then .integer n
  else if n = 0 || negativeBound < n then .double { Double.ofInt n with negative := true }
  else .integer (-n)

/-- The greatest power of ten that is multiplied or divided by at once. -/
def maxPower : Nat := 308

private def powerOfTen (k : Nat) : Nat × Nat :=
  ((Double.ofRatio? false (Nat.pow 10 k) 1).getD (.zero false)).magnitude

/-- A double times a power of ten, if it is in range. -/
private def timesPower (x : Double) (k : Nat) : Option Double :=
  let m := x.magnitude
  let p := powerOfTen k
  Double.ofRatio? x.negative (m.1 * p.1) (m.2 * p.2)

private def overPower (x : Double) (k : Nat) : Double :=
  let m := x.magnitude
  let p := powerOfTen k
  (Double.ofRatio? x.negative (m.1 * p.2) (m.2 * p.1)).getD (.zero x.negative)

/-- The double of a sign, a significand and an exponent of ten, if it is in range. An exponent
below twice the least power leaves nothing of any significand. -/
def Number.ofParts? (negative : Bool) (significand : Nat) (exponent : Int) : Option Number :=
  let x := { Double.ofInt significand with negative := negative }
  if significand = 0 then some (.double (.zero negative))
  else if 0 ≤ exponent then
    if exponent.toNat ≤ maxPower then (timesPower x exponent.toNat).map .double else none
  else
    let k := (-exponent).toNat
    if k ≤ maxPower then some (.double (overPower x k))
    else if k ≤ 2 * maxPower then
      some (.double (overPower (overPower x maxPower) (k - maxPower)))
    else some (.double (.zero negative))

end TelemetryTypes.Json
