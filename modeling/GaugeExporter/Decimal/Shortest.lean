import GaugeExporter.Binary.Format
import GaugeExporter.Decimal.Basic

/-!
# The shortest decimal of a binary number

Among the decimals that round back to a binary number, `shortest` takes one
with the fewest digits and, of those, the nearest one. A tie between two
neighbours on the decimal grid goes to the larger. The search is exact: both
grid neighbours of the number are compared with the end points of the interval
of reals that round to it, all as natural numbers. It rests on one fact: if any
point of a grid lies in the interval, so does one of the number's two
neighbours on that grid.
-/

namespace GaugeExporter.Decimal

open GaugeExporter.Binary (Format)

/-! ## The rounding interval -/

/-- The reals that round to a binary number, in quarters of its last
significand bit: every field counts multiples of `2 ^ exponent`. -/
structure Interval where
  lower : Nat
  centre : Nat
  upper : Nat
  exponent : Int
  -- Both ends belong to the interval.
  closed : Bool
  deriving DecidableEq, Repr

/-- The interval of `significand · 2 ^ exponent`. It reaches half a step to
either side, but only a quarter of a step down from a power of two, below which
the steps are half as wide. The ends round to even. -/
def Interval.around (f : Format) (significand : Nat) (exponent : Int) : Interval where
  lower :=
    if significand = Nat.pow 2 f.precision ∧ f.minExponent < exponent then 4 * significand - 1
    else 4 * significand - 2
  centre := 4 * significand
  upper := 4 * significand + 2
  exponent := exponent - 2
  closed := decide (significand % 2 = 0)

/-! ## Decimal grids -/

/-- A decimal grid laid over an interval: in a common unit the grid points are
the multiples of `step`, and the interval's counts are multiples of `unit`. -/
structure Grid where
  exponent : Int
  step : Nat
  unit : Nat
  deriving DecidableEq, Repr

def Grid.over (interval : Interval) (exponent : Int) : Grid where
  exponent := exponent
  step := Nat.pow 10 exponent.toNat * Nat.pow 2 (-interval.exponent).toNat
  unit := Nat.pow 2 interval.exponent.toNat * Nat.pow 10 (-exponent).toNat

def Grid.holds (grid : Grid) (interval : Interval) (n : Nat) : Bool :=
  let point := n * grid.step
  let lower := interval.lower * grid.unit
  let upper := interval.upper * grid.unit
  if interval.closed then decide (lower ≤ point ∧ point ≤ upper)
  else decide (lower < point ∧ point < upper)

/-- The better of the two grid neighbours of the centre, if one of them lies in
the interval. -/
def Grid.best? (grid : Grid) (interval : Interval) : Option Decimal :=
  let centre := interval.centre * grid.unit
  let below := centre / grid.step
  let point (n : Nat) : Decimal := ⟨n, grid.exponent⟩
  match grid.holds interval below, grid.holds interval (below + 1) with
  | false, false => none
  | true, false => some (point below)
  | false, true => some (point (below + 1))
  | true, true =>
    if centre - below * grid.step < (below + 1) * grid.step - centre then some (point below)
    else some (point (below + 1))

/-! ## The search -/

/-- The largest `e` with `10 ^ e ≤ significand · 2 ^ exponent`, for a positive
significand. -/
def log10 (significand : Nat) (exponent : Int) : Int :=
  if 0 ≤ exponent then digitCount (significand * Nat.pow 2 exponent.toNat) - 1
  else
    let denominator := Nat.pow 2 (-exponent).toNat
    if denominator ≤ significand then digitCount (significand / denominator) - 1
    else -(digitCount ((denominator - 1) / significand) : Nat)

/-- No double needs more digits than these to be told from its neighbours. -/
def mostDigits : Nat := 17

/-- The shortest decimal that rounds back to `significand · 2 ^ exponent`,
nearest of those, without trailing zeros. -/
def shortest (f : Format) (significand : Nat) (exponent : Int) : Decimal :=
  if significand = 0 then ⟨0, 0⟩
  else
    let interval := Interval.around f significand exponent
    let leading := log10 significand exponent
    let hit? (further : Nat) : Option Decimal :=
      (Grid.over interval (leading - further)).best? interval
    match (List.range mostDigits).findSome? hit? with
    | some d => d.strip
    | none =>
      -- The exact value, for a format that needs more digits than a double.
      ⟨significand * Nat.pow 5 (-exponent).toNat * Nat.pow 2 exponent.toNat, min exponent 0⟩

end GaugeExporter.Decimal
