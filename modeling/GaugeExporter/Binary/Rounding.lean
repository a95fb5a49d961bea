import GaugeExporter.Binary.Format

/-!
# Rounding to the nearest number of a format

`Format.ofRatio` takes a quotient of natural numbers to the nearest pattern,
ties to the even significand, and to positive infinity when the quotient is
half a step or more beyond the largest finite number. Sums and integers reach
the double format through it, so each of them is rounded exactly once. Only
spans of time, which are sums of two rounded parts, are rounded twice.
-/

namespace GaugeExporter.Binary

/-- The quotient rounded to the nearest natural number, ties to even. -/
def roundDiv (numerator denominator : Nat) : Nat :=
  let quotient := numerator / denominator
  let twice := 2 * (numerator % denominator)
  if twice < denominator then quotient
  else if denominator < twice then quotient + 1
  else quotient + quotient % 2

/-- The largest `e` with `2 ^ e ≤ numerator / denominator`, for positive
arguments. -/
def ratioLog (numerator denominator : Nat) : Int :=
  let guess : Int := numerator.log2 - denominator.log2
  let reached :=
    if 0 ≤ guess then decide (denominator * Nat.pow 2 guess.toNat ≤ numerator)
    else decide (denominator ≤ numerator * Nat.pow 2 (-guess).toNat)
  if reached then guess else guess - 1

namespace Format

def ofRatio (f : Format) (numerator denominator : Nat) : Nat :=
  if numerator = 0 then 0
  else
    let exponent := max f.minExponent (ratioLog numerator denominator - f.precision)
    let significand :=
      roundDiv (numerator * Nat.pow 2 (-exponent).toNat) (denominator * Nat.pow 2 exponent.toNat)
    f.magnitude significand exponent

end Format

namespace Double

def ofRatio (negative : Bool) (numerator denominator : Nat) : Double :=
  let pattern := double.ofRatio numerator denominator
  ofNatBits (if negative then double.signBit + pattern else pattern)

/-- The double nearest to an integer. Zero is positive. -/
def ofInt (n : Int) : Double := ofRatio (decide (n < 0)) n.natAbs 1

def signedShift (negative : Bool) (significand shift : Nat) : Int :=
  let n : Int := (significand * Nat.pow 2 shift : Nat)
  if negative then -n else n

/-- The sum, rounded once. Two zeros of one sign keep the sign; any other zero
sum is positive. -/
def add (x y : Double) : Double :=
  match x.number, y.number with
  | .nan, _ | _, .nan => nan
  | .infinite s, .infinite t => if s = t then infinite s else nan
  | .infinite s, .finite .. => infinite s
  | .finite .., .infinite t => infinite t
  | .finite s m q, .finite t n r =>
    let low := min q r
    let sum := signedShift s m (q - low).toNat + signedShift t n (r - low).toNat
    if sum = 0 then zero (s && t)
    else ofRatio (decide (sum < 0)) (sum.natAbs * Nat.pow 2 low.toNat) (Nat.pow 2 (-low).toNat)

/-- The greatest integer that is not above a number. -/
def floor (x : Double) : Double :=
  match x.number with
  | .finite s m q =>
    if 0 ≤ q then x
    else
      let whole := signedShift s m 0 / (Nat.pow 2 (-q).toNat : Nat)
      if whole = 0 then zero s else ofInt whole
  | _ => x

/-- A span of nanoseconds in seconds: the whole seconds and the rest of the span are
rounded first, then their sum. -/
def seconds (nanoseconds : Nat) : Double :=
  add (ofInt (nanoseconds / 1000000000 : Nat))
    (ofRatio false (nanoseconds % 1000000000) 1000000000)

end Double

end GaugeExporter.Binary
