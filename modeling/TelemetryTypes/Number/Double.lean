/-!
# Binary64 numbers

A finite double is a sign, a significand below `2 ^ 53` and an exponent of two. The significand is
below `2 ^ 52` only at the least exponent, so a value has one form, zero and its sign apart. A
ratio of naturals is rounded to the nearest double, and to the one with the even significand when
it lies half way; a ratio from half a step above the greatest double on has none.
-/

namespace TelemetryTypes

/-- The finite double `(-1) ^ negative * significand * 2 ^ exponent`. -/
structure Double where
  negative : Bool
  significand : Nat
  exponent : Int
  deriving DecidableEq, Repr

namespace Double

/-- The least exponent, that of zero and of the subnormal numbers. -/
def minExponent : Int := -1074

/-- The exponent of the greatest doubles. -/
def maxExponent : Int := 971

/-- The bound of significands, `2 ^ 53`. -/
def significandBound : Nat := 9007199254740992

/-- The least significand above the least exponent, `2 ^ 52`. -/
def leastNormal : Nat := 4503599627370496

def zero (negative : Bool) : Double := ⟨negative, 0, minExponent⟩

/-- `n / d` times `2 ^ e` as a ratio of naturals. -/
def scaleByTwo (n d : Nat) (e : Int) : Nat × Nat :=
  if 0 ≤ e then (n * Nat.pow 2 e.toNat, d) else (n, d * Nat.pow 2 (-e).toNat)

/-- `n / d` times `10 ^ e` as a ratio of naturals. -/
def scaleByTen (n d : Nat) (e : Int) : Nat × Nat :=
  if 0 ≤ e then (n * Nat.pow 10 e.toNat, d) else (n, d * Nat.pow 10 (-e).toNat)

def magnitude (x : Double) : Nat × Nat := scaleByTwo x.significand 1 x.exponent

/-- The floor of the binary logarithm of `n / d`, for positive `n` and `d`. -/
def floorLog (n d : Nat) : Int :=
  let estimate : Int := (Nat.log2 n : Int) - Nat.log2 d
  let power := scaleByTwo d 1 estimate
  if n * power.2 < power.1 then estimate - 1 else estimate

/-- `n / d` rounded to a natural; a half goes to the even neighbour. -/
def roundHalfEven (n d : Nat) : Nat :=
  let q := n / d
  let twice := 2 * (n % d)
  if twice < d || (twice == d && q % 2 == 0) then q else q + 1

/-- `n / d` rounded to a natural; a half goes up. -/
def roundHalfUp (n d : Nat) : Nat := if 2 * (n % d) < d then n / d else n / d + 1

/-- The double nearest to `n / d` with the given sign, if it is in range. -/
def ofRatio? (negative : Bool) (n d : Nat) : Option Double :=
  if n = 0 then some (zero negative)
  else
    let exponent := max (floorLog n d - 52) minExponent
    let scaled := scaleByTwo n d (-exponent)
    let q := roundHalfEven scaled.1 scaled.2
    let x : Double :=
      if q = significandBound then ⟨negative, leastNormal, exponent + 1⟩
      else ⟨negative, q, exponent⟩
    if maxExponent < x.exponent then none else some x

/-- The double nearest to an integer of at most 128 bits, all of which are in range. -/
def ofInt (n : Int) : Double := (ofRatio? (n < 0) n.natAbs 1).getD (zero false)

/-- Whether two doubles are the same number; the two zeros are. -/
def sameValue (x y : Double) : Bool :=
  x.significand == y.significand && x.exponent == y.exponent
    && (x.negative == y.negative || x.significand == 0)

def isInteger (x : Double) (n : Int) : Bool :=
  let m := x.magnitude
  m.1 == n.natAbs * m.2 && (n == 0 || x.negative == decide (n < 0))

end Double

end TelemetryTypes
