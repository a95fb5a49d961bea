/-!
# Binary interchange formats

A format is fixed by the number of stored significand bits and exponent bits.
`Format.classify` reads a bit pattern as a signed infinity, a NaN or the exact
number `± significand · 2 ^ exponent`; `Format.magnitude` goes the other way.
The packing `(exponent - minExponent) · 2 ^ precision + significand` is one
formula for subnormal and normal numbers: a carry out of the significand moves
to the next exponent by itself.
-/

namespace GaugeExporter.Binary

/-- The two widths that fix an interchange format. -/
structure Format where
  -- Stored significand bits, the leading one excluded.
  precision : Nat
  -- Exponent bits.
  exponentBits : Nat
  deriving DecidableEq, Repr

def double : Format := ⟨52, 11⟩

def single : Format := ⟨23, 8⟩

inductive Number where
  | nan
  | infinite (negative : Bool)
  -- The exact number `± significand · 2 ^ exponent`.
  | finite (negative : Bool) (significand : Nat) (exponent : Int)
  deriving DecidableEq, Repr

namespace Format

def topField (f : Format) : Nat := Nat.pow 2 f.exponentBits - 1

/-- The exponent of the last significand bit of subnormal numbers. -/
def minExponent (f : Format) : Int :=
  2 - (Nat.pow 2 (f.exponentBits - 1) : Nat) - f.precision

def infinity (f : Format) : Nat := f.topField * Nat.pow 2 f.precision

def signBit (f : Format) : Nat := Nat.pow 2 (f.precision + f.exponentBits)

def classify (f : Format) (bits : Nat) : Number :=
  let negative := decide (bits / f.signBit % 2 = 1)
  let field := bits / Nat.pow 2 f.precision % Nat.pow 2 f.exponentBits
  let fraction := bits % Nat.pow 2 f.precision
  if field = f.topField then
    if fraction = 0 then .infinite negative else .nan
  else if field = 0 then
    .finite negative fraction f.minExponent
  else
    .finite negative (Nat.pow 2 f.precision + fraction) (f.minExponent + (field - 1 : Nat))

/-- The pattern of `significand · 2 ^ exponent`, positive infinity when the
number is out of range. -/
def magnitude (f : Format) (significand : Nat) (exponent : Int) : Nat :=
  min f.infinity ((exponent - f.minExponent).toNat * Nat.pow 2 f.precision + significand)

end Format

/-! ## Double values -/

/-- A 64-bit pattern read as a number. Equality is equality of patterns. -/
structure Double where
  bits : UInt64
  deriving DecidableEq, Repr, Inhabited

namespace Double

def number (x : Double) : Number := double.classify x.bits.toNat

/-- The pattern given as a natural number below `2 ^ 64`. -/
def ofNatBits (bits : Nat) : Double := ⟨UInt64.ofNat bits⟩

def nan : Double := ⟨0x7ff8000000000000⟩

def zero (negative : Bool) : Double :=
  if negative then ⟨0x8000000000000000⟩ else ⟨0⟩

def infinite (negative : Bool) : Double :=
  if negative then ⟨0xfff0000000000000⟩ else ⟨0x7ff0000000000000⟩

def isNaN (x : Double) : Bool :=
  match x.number with
  | .nan => true
  | _ => false

def isFinite (x : Double) : Bool :=
  match x.number with
  | .finite .. => true
  | _ => false

theorem isNaN_nan : nan.isNaN = true := by decide

end Double

end GaugeExporter.Binary
