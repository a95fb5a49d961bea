import GaugeExporter.Binary.Format
import GaugeExporter.Decimal.Shortest

/-!
# Layouts of decimal text

The shortest digits of a number are laid out positionally or in scientific
form. `Text.plain` is always positional, `Text.scientific` always scientific,
and `Text.display` follows the program's notation for values in messages: it
keeps `.0` on whole numbers and changes to scientific form outside
`10⁻⁴ ≤ |x| < 10¹⁶`.
-/

namespace GaugeExporter.Decimal

open GaugeExporter.Binary (Format Number Double)

/-! ## Layouts of a decimal -/

/-- Positional text: no exponent, a point only if a fraction follows it. -/
def positional (d : Decimal) : List Char :=
  let text := digits d.significand
  if 0 ≤ d.exponent then
    if d.significand = 0 then ['0'] else text ++ List.replicate d.exponent.toNat '0'
  else
    let places := (-d.exponent).toNat
    if places < text.length then
      text.take (text.length - places) ++ '.' :: text.drop (text.length - places)
    else
      '0' :: '.' :: List.replicate (places - text.length) '0' ++ text

/-- One digit, the other digits after a point, and the power of ten. -/
def scientific (d : Decimal) : List Char :=
  let text := digits d.significand
  let power := if d.significand = 0 then 0 else d.exponent + (text.length - 1 : Nat)
  let mantissa :=
    match text with
    | first :: second :: rest => first :: '.' :: second :: rest
    | short => short
  mantissa ++ 'e' :: integer power

def isWhole (d : Decimal) : Bool := d.significand = 0 || decide (0 ≤ d.exponent)

/-! ## Text of a binary number -/

namespace Text

/-- How the parts of a number are written. -/
structure Style where
  nan : List Char
  positiveInfinity : List Char
  negativeInfinity : List Char
  -- The text of a finite magnitude.
  magnitude : Decimal → List Char

/-- The text of a bit pattern. The sign of a zero is kept. -/
def write (style : Style) (f : Format) (bits : Nat) : List Char :=
  match f.classify bits with
  | .nan => style.nan
  | .infinite false => style.positiveInfinity
  | .infinite true => style.negativeInfinity
  | .finite negative significand exponent =>
    let text := style.magnitude (shortest f significand exponent)
    if negative then '-' :: text else text

theorem write_finite (style : Style) {f : Format} {bits significand : Nat} {exponent : Int}
    {negative : Bool} (finite : f.classify bits = .finite negative significand exponent) :
    write style f bits
      = if negative then '-' :: style.magnitude (shortest f significand exponent)
        else style.magnitude (shortest f significand exponent) := by
  rw [write, finite]

/-- Never an exponent, a point only in front of a fraction. -/
def plainStyle : Style where
  nan := "NaN".toList
  positiveInfinity := "inf".toList
  negativeInfinity := "-inf".toList
  magnitude := positional

def exponentStyle : Style where
  nan := "NaN".toList
  positiveInfinity := "inf".toList
  negativeInfinity := "-inf".toList
  magnitude := scientific

/-- Positional with at least one decimal place, scientific when nonzero and
outside `10⁻⁴ ≤ |x| < 10¹⁶`. -/
def displayStyle : Style where
  nan := "NaN".toList
  positiveInfinity := "inf".toList
  negativeInfinity := "-inf".toList
  magnitude d :=
    let power := d.exponent + (digitCount d.significand - 1 : Nat)
    if d.significand ≠ 0 ∧ (power < -4 ∨ 16 ≤ power) then scientific d
    else if d.isWhole then positional d ++ ['.', '0']
    else positional d

def pointedStyle : Style where
  nan := "NaN".toList
  positiveInfinity := "inf".toList
  negativeInfinity := "-inf".toList
  magnitude d := if d.isWhole then positional d ++ ['.', '0'] else positional d

end Text

end GaugeExporter.Decimal

namespace GaugeExporter.Binary.Double

open GaugeExporter.Decimal

def plain (x : Double) : List Char := Text.write Text.plainStyle double x.bits.toNat

def exponential (x : Double) : List Char := Text.write Text.exponentStyle double x.bits.toNat

def display (x : Double) : List Char := Text.write Text.displayStyle double x.bits.toNat

def pointed (x : Double) : List Char := Text.write Text.pointedStyle double x.bits.toNat

end GaugeExporter.Binary.Double
