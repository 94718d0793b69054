import TelemetryTypes.Number.Double

/-!
# The text of a double

The decimals that round to a double form an interval around it, with its ends when the significand is
even. The text of a double has the fewest digits with which a decimal lies in that interval, and
among those the nearest decimal; where two are as near, the one that a given rule of rounding takes.
On the grid of decimals with a given number of digits only the two neighbours of the double have to
be tried: if any point of the grid lies in the interval, one of them does.

Two layouts of these digits are in use. Documents and what is said about them write a number
positionally while its first digit stands between the fifth place after the point and the sixteenth
before it, and with an exponent of explicit sign beyond. What is said about settings always writes
the number out. Both give an integral number a final `.0`. Of two shortest decimals that are as near,
documents take the one with an even last digit and settings the greater one.
-/

namespace TelemetryTypes

/-! ### The fewest digits that read back -/

/-- A positive decimal `0.d₁d₂… * 10 ^ point`, whose first and last digits are not zero. -/
structure DecimalDigits where
  digits : List Char
  point : Int
  deriving Repr

namespace Double

/-- The number of decimal digits of a natural; zero has none. -/
def decimalLength (n : Nat) : Nat := if n = 0 then 0 else (Nat.toDigits 10 n).length

/-- The `k` with `10 ^ (k - 1) ≤ n / d < 10 ^ k`, for positive `n` and `d`. -/
def decimalPoint (n d : Nat) : Int :=
  if d ≤ n then (decimalLength (n / d) : Int)
  else 1 - (decimalLength ((d + n - 1) / n - 1) : Int)

/-- The interval of decimals that round to a double, and the double, over one denominator. -/
structure Interval where
  lower : Nat
  value : Nat
  upper : Nat
  denominator : Nat
  closed : Bool

/-- The interval around a double. Below a power of two the doubles lie half as far apart. -/
def interval (x : Double) : Interval :=
  let scale (quarters : Nat) := scaleByTwo quarters 1 (x.exponent - 2)
  let below := if x.significand = leastNormal && x.exponent != minExponent then 1 else 2
  let value := scale (4 * x.significand)
  { lower := (scale (4 * x.significand - below)).1
    value := value.1
    upper := (scale (4 * x.significand + 2)).1
    denominator := value.2
    closed := x.significand % 2 == 0 }

def Interval.contains (i : Interval) (n d : Nat) : Bool :=
  let at_ := n * i.denominator
  if i.closed then i.lower * d ≤ at_ && at_ ≤ i.upper * d
  else i.lower * d < at_ && at_ < i.upper * d

/-- A rule that rounds the ratio of two naturals to a natural next to it. -/
abbrev Rounding := Nat → Nat → Nat

/-- The decimal with the given exponent of its last digit that is nearest to the double, if it
lies in the interval. -/
def nearestOnGrid? (round : Rounding) (i : Interval) (last : Int) : Option Nat :=
  let scaled := scaleByTen i.value i.denominator (-last)
  let floor := scaled.1 / scaled.2
  let fits (m : Nat) : Bool :=
    let point := scaleByTen m 1 last
    i.contains point.1 point.2
  let nearest := round scaled.1 scaled.2
  if fits nearest then some nearest
  else if fits floor then some floor
  else if fits (floor + 1) then some (floor + 1)
  else none

/-- Tries grids of one, two, … digits; seventeen always suffice. -/
def shortestFrom (round : Rounding) (i : Interval) (point : Int) : Nat → Nat → Nat × Int
  | 0, _ => (0, 0)
  | tries + 1, count =>
    let last := point - count
    match nearestOnGrid? round i last with
    | some m => (m, last)
    | none => shortestFrom round i point tries (count + 1)

/-- The digits of the magnitude of a double other than zero. -/
def shortest (round : Rounding) (x : Double) : DecimalDigits :=
  let i := x.interval
  let (m, last) := shortestFrom round i (decimalPoint i.value i.denominator) 17 1
  let all := Nat.toDigits 10 m
  let digits := (all.reverse.dropWhile (· == '0')).reverse
  ⟨digits, last + all.length⟩

/-! ### Layouts -/

private def zeros (n : Nat) : List Char := List.replicate n '0'

/-- Digits written around a point that stands after `point` of them. -/
def positional (d : DecimalDigits) : List Char :=
  let n := d.digits.length
  if d.point ≤ 0 then ['0', '.'] ++ zeros (-d.point).toNat ++ d.digits
  else if n ≤ d.point.toNat then d.digits ++ zeros (d.point.toNat - n) ++ ['.', '0']
  else d.digits.take d.point.toNat ++ ['.'] ++ d.digits.drop d.point.toNat

/-- One digit before the point and an exponent of ten. -/
def scientific (d : DecimalDigits) : List Char :=
  let exponent := d.point - 1
  let mantissa := match d.digits with
    | [] => []
    | [c] => [c]
    | c :: rest => c :: '.' :: rest
  mantissa ++ ['e', if exponent < 0 then '-' else '+'] ++ Nat.toDigits 10 exponent.natAbs

private def signed (round : Rounding) (x : Double) (layout : DecimalDigits → List Char) : String :=
  let body := if x.significand = 0 then ['0', '.', '0'] else layout (shortest round x)
  String.ofList (if x.negative then '-' :: body else body)

def text (x : Double) : String :=
  signed roundHalfEven x fun d =>
    if -5 < d.point && d.point ≤ 16 then positional d else scientific d

def fullText (x : Double) : String := signed roundHalfUp x positional

end Double

end TelemetryTypes
