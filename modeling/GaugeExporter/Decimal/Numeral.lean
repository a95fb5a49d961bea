import GaugeExporter.Binary.Rounding
import GaugeExporter.Decimal.Basic

/-!
# Reading numerals

`natural?` reads an unsigned integer below a bound. `Double.ofText?` reads a
floating point numeral and rounds it once, however long its digits or however
large its exponent are: a decimal whose leading digit stands beyond `10 ^ ±400`
is out of the format's range on either side, so no such power is ever computed.
-/

namespace GaugeExporter.Decimal

open GaugeExporter.Binary (Double)

/-! ## Integers -/

/-- A nonempty run of ASCII digits, after an optional plus sign, whose number
is below the bound. -/
def natural? (bound : Nat) (text : List Char) : Option Nat :=
  let body :=
    match text with
    | '+' :: rest => rest
    | _ => text
  if body ≠ [] ∧ body.all Char.isDigit then
    let n := ofDigits body
    if n < bound then some n else none
  else none

/-! ## Floating point numerals -/

/-- The power of ten beyond which every decimal is infinite or zero as a
double. -/
def reach : Int := 400

def toDouble (negative : Bool) (d : Decimal) : Double :=
  let leading := d.exponent + digitCount d.significand
  if d.significand = 0 ∨ leading < -reach then .zero negative
  else if reach < leading then .infinite negative
  else
    .ofRatio negative (d.significand * Nat.pow 10 d.exponent.toNat)
      (Nat.pow 10 (-d.exponent).toNat)

/-- Splits a leading sign off: whether it is a minus, and the rest. -/
def sign (text : List Char) : Bool × List Char :=
  match text with
  | '+' :: rest => (false, rest)
  | '-' :: rest => (true, rest)
  | _ => (false, text)

/-- The exponent part: nothing, or a letter `e` with a signed run of digits. -/
def exponentPart? : List Char → Option Int
  | [] => some 0
  | c :: rest =>
    if c = 'e' ∨ c = 'E' then
      let (negative, body) := sign rest
      if body ≠ [] ∧ body.all Char.isDigit then
        some (if negative then -(ofDigits body : Int) else ofDigits body)
      else none
    else none

/-- An unsigned decimal numeral: digits with at most one point among them, at
least one digit, and an optional exponent. -/
def unsigned? (text : List Char) : Option Decimal :=
  let whole := text.takeWhile Char.isDigit
  let afterWhole := text.dropWhile Char.isDigit
  let (fraction, tail) :=
    match afterWhole with
    | '.' :: rest => (rest.takeWhile Char.isDigit, rest.dropWhile Char.isDigit)
    | _ => ([], afterWhole)
  if whole = [] ∧ fraction = [] then none
  else
    (exponentPart? tail).map fun power =>
      ⟨ofDigits (whole ++ fraction), power - (fraction.length : Nat)⟩

def named? (negative : Bool) (text : List Char) : Option Double :=
  let word := text.map Char.toLower
  if word = "inf".toList ∨ word = "infinity".toList then some (.infinite negative)
  else if word = "nan".toList then some .nan
  else none

end GaugeExporter.Decimal

namespace GaugeExporter.Binary.Double

open GaugeExporter.Decimal

/-- A floating point numeral: an optional sign in front of a decimal numeral or
of one of the names `inf`, `infinity` and `nan`. -/
def ofText? (text : List Char) : Option Double :=
  let (negative, body) := sign text
  match named? negative body with
  | some x => some x
  | none => (unsigned? body).map (toDouble negative)

end GaugeExporter.Binary.Double
