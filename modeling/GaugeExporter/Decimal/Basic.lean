/-!
# Decimal numbers and their digits

`Decimal` is `significand · 10 ^ exponent` with a natural significand.
`digits` and `ofDigits` are the positional text of a natural number and its
reading; the two are inverse, and `digitCount` is the length of the text.
-/

namespace GaugeExporter

/-- The number `significand · 10 ^ exponent`. -/
structure Decimal where
  significand : Nat
  exponent : Int
  deriving DecidableEq, Repr

namespace Decimal

/-! ## Positional digits -/

def digitChar (d : Nat) : Char := Char.ofNat ('0'.toNat + d)

def digitValue (c : Char) : Nat := c.toNat - '0'.toNat

def digits (n : Nat) : List Char :=
  if n < 10 then [digitChar n] else digits (n / 10) ++ [digitChar (n % 10)]
termination_by n

def ofDigits (cs : List Char) : Nat :=
  cs.foldl (fun n c => 10 * n + digitValue c) 0

def digitCount (n : Nat) : Nat :=
  if n < 10 then 1 else digitCount (n / 10) + 1
termination_by n

/-- The text of an integer: a minus sign in front of the digits of a negative
one, nothing in front of the others. -/
def integer (n : Int) : List Char :=
  if n < 0 then '-' :: digits n.natAbs else digits n.natAbs

theorem digitValue_digitChar {d : Nat} (h : d < 10) : digitValue (digitChar d) = d := by
  have : ∀ d : Fin 10, digitValue (digitChar d) = d := by decide
  exact this ⟨d, h⟩

theorem isDigit_digitChar {d : Nat} (h : d < 10) : (digitChar d).isDigit = true := by
  have : ∀ d : Fin 10, (digitChar d).isDigit = true := by decide
  exact this ⟨d, h⟩

theorem ofDigits_concat (cs : List Char) (c : Char) :
    ofDigits (cs ++ [c]) = 10 * ofDigits cs + digitValue c := by
  simp [ofDigits]

theorem ofDigits_digits (n : Nat) : ofDigits (digits n) = n := by
  induction n using digits.induct with
  | case1 n small => simp [digits, small, ofDigits, digitValue_digitChar small]
  | case2 n large ih =>
    rw [digits, if_neg large, ofDigits_concat, ih, digitValue_digitChar (Nat.mod_lt _ (by decide))]
    omega

theorem length_digits (n : Nat) : (digits n).length = digitCount n := by
  induction n using digits.induct with
  | case1 n small => simp [digits, digitCount, small]
  | case2 n large ih => rw [digits, digitCount, if_neg large, if_neg large]; simp [ih]

theorem isDigit_of_mem_digits {n : Nat} {c : Char} (h : c ∈ digits n) : c.isDigit = true := by
  induction n using digits.induct with
  | case1 n small =>
    rw [digits, if_pos small, List.mem_singleton] at h
    exact h ▸ isDigit_digitChar small
  | case2 n large ih =>
    rw [digits, if_neg large, List.mem_append, List.mem_singleton] at h
    rcases h with h | rfl
    · exact ih h
    · exact isDigit_digitChar (Nat.mod_lt _ (by decide))

/-! ## Canonical form -/

/-- The same number with the trailing zeros of the significand moved into the
exponent. -/
def strip (d : Decimal) : Decimal :=
  if d.significand = 0 ∨ d.significand % 10 ≠ 0 then d
  else strip ⟨d.significand / 10, d.exponent + 1⟩
termination_by d.significand
decreasing_by omega

end Decimal

end GaugeExporter
