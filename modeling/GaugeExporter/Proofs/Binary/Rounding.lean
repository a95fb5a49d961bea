import Mathlib.Algebra.Order.Field.Power
import Mathlib.Tactic.FieldSimp
import Mathlib.Tactic.Linarith
import Mathlib.Tactic.Positivity
import Mathlib.Tactic.Ring
import GaugeExporter.Binary.Rounding

/-!
# Rounding a quotient

`ofRatio` scales a quotient by a power of two that it finds from the lengths of
its parts (`ratioLog_spec`) and rounds once.  `ofRatio_of_near` turns this into
arithmetic over the rationals: what counts is the scale and that the scaled
quotient is within one half of the significand, ties only at an even one.
-/

namespace GaugeExporter.Binary

/-! ## Rounding to a natural number -/

/-- A natural number within one half of a quotient is what the quotient rounds
to, an even one also at one half. -/
theorem roundDiv_eq {a b n : Nat} (positive : 0 < b) (low : 2 * (n * b) ≤ 2 * a + b)
    (high : 2 * a ≤ 2 * (n * b) + b)
    (tie : 2 * (n * b) = 2 * a + b ∨ 2 * a = 2 * (n * b) + b → n % 2 = 0) :
    roundDiv a b = n := by
  have division : b * (a / b) + a % b = a := Nat.div_add_mod a b
  have remainder : a % b < b := Nat.mod_lt a positive
  unfold roundDiv
  generalize a / b = q at division ⊢
  generalize a % b = r at division remainder ⊢
  have atMost : n ≤ q + 1 := by
    by_contra more
    have : (q + 2) * b ≤ n * b := Nat.mul_le_mul_right b (by omega)
    have : (q + 2) * b = b * q + 2 * b := by ring
    omega
  have atLeast : q ≤ n := by
    by_contra less
    have : (n + 1) * b ≤ q * b := Nat.mul_le_mul_right b (by omega)
    have : (n + 1) * b = n * b + b := by ring
    have : q * b = b * q := Nat.mul_comm q b
    omega
  have swap : q * b = b * q := Nat.mul_comm q b
  obtain rfl | rfl : n = q ∨ n = q + 1 := by omega
  · simp only
    split
    · rfl
    · have even := tie (.inr (by omega))
      rw [if_neg (by omega), even, Nat.add_zero]
  · have grown : (q + 1) * b = q * b + b := Nat.succ_mul q b
    simp only
    rw [if_neg (by omega)]
    split
    · rfl
    · have even := tie (.inl (by omega))
      omega

/-! ## Powers of two -/

theorem two_zpow_pos (e : Int) : (0 : ℚ) < 2 ^ e := zpow_pos (by norm_num) e

theorem zpow_mul_toNat {b : ℚ} (nonzero : b ≠ 0) (e : Int) :
    b ^ e * b ^ (-e).toNat = b ^ e.toNat := by
  rw [← zpow_natCast, ← zpow_natCast, ← zpow_add₀ nonzero]
  congr 1
  omega

theorem two_zpow_eq (e : Int) : (2 : ℚ) ^ e * 2 ^ (-e).toNat = 2 ^ e.toNat :=
  zpow_mul_toNat (by norm_num) e

/-- At most one power of two is the largest that a number reaches. -/
theorem log_unique {q : ℚ} {a b : Int} (lowA : 2 ^ a ≤ q) (highA : q < 2 ^ (a + 1))
    (lowB : 2 ^ b ≤ q) (highB : q < 2 ^ (b + 1)) : a = b := by
  have ab : a < b + 1 := (zpow_lt_zpow_iff_right₀ (by norm_num)).mp (lowA.trans_lt highB)
  have ba : b < a + 1 := (zpow_lt_zpow_iff_right₀ (by norm_num)).mp (lowB.trans_lt highA)
  omega

theorem log2_bounds {n : Nat} (positive : 0 < n) :
    (2 : ℚ) ^ (n.log2 : Int) ≤ n ∧ (n : ℚ) < 2 ^ ((n.log2 : Int) + 1) := by
  constructor
  · rw [zpow_natCast]
    exact_mod_cast Nat.log2_self_le positive.ne'
  · have below := @Nat.lt_log2_self n
    rw [← Nat.cast_succ, zpow_natCast]
    exact_mod_cast below

theorem reaches_iff {N D : Nat} (hD : 0 < D) (g : Int) :
    (if 0 ≤ g then decide (D * Nat.pow 2 g.toNat ≤ N)
      else decide (D ≤ N * Nat.pow 2 (-g).toNat)) = true ↔ (2 : ℚ) ^ g ≤ N / D := by
  have posD : (0 : ℚ) < D := by exact_mod_cast hD
  have scale := two_zpow_eq g
  rw [le_div_iff₀ posD]
  by_cases whole : 0 ≤ g
  · rw [show (-g).toNat = 0 by omega, pow_zero, mul_one] at scale
    rw [if_pos whole, decide_eq_true_eq, scale, mul_comm, Nat.pow_eq]
    exact_mod_cast Iff.rfl
  · rw [show g.toNat = 0 by omega, pow_zero] at scale
    have pos : (0 : ℚ) < 2 ^ (-g).toNat := by positivity
    rw [if_neg whole, decide_eq_true_eq, Nat.pow_eq, ← mul_le_mul_iff_of_pos_right pos,
      mul_right_comm, scale, one_mul]
    exact_mod_cast Iff.rfl

/-- `ratioLog` finds the largest power of two that a quotient reaches. -/
theorem ratioLog_spec {N D : Nat} (hN : 0 < N) (hD : 0 < D) :
    (2 : ℚ) ^ ratioLog N D ≤ N / D ∧ (N : ℚ) / D < 2 ^ (ratioLog N D + 1) := by
  obtain ⟨lowN, highN⟩ := log2_bounds hN
  obtain ⟨lowD, highD⟩ := log2_bounds hD
  have posD : (0 : ℚ) < D := by exact_mod_cast hD
  have two : (2 : ℚ) ≠ 0 := by norm_num
  have below : (N : ℚ) / D < 2 ^ ((N.log2 : Int) - D.log2 + 1) := by
    rw [div_lt_iff₀ posD]
    calc (N : ℚ) < 2 ^ ((N.log2 : Int) + 1) := highN
      _ = 2 ^ ((N.log2 : Int) - D.log2 + 1) * 2 ^ (D.log2 : Int) := by
        rw [← zpow_add₀ two]
        congr 1
        omega
      _ ≤ 2 ^ ((N.log2 : Int) - D.log2 + 1) * D :=
        mul_le_mul_of_nonneg_left lowD (two_zpow_pos _).le
  have above : (2 : ℚ) ^ ((N.log2 : Int) - D.log2 - 1) ≤ N / D := by
    rw [le_div_iff₀ posD]
    calc (2 : ℚ) ^ ((N.log2 : Int) - D.log2 - 1) * D
        ≤ 2 ^ ((N.log2 : Int) - D.log2 - 1) * 2 ^ ((D.log2 : Int) + 1) :=
          mul_le_mul_of_nonneg_left highD.le (two_zpow_pos _).le
      _ = 2 ^ (N.log2 : Int) := by
        rw [← zpow_add₀ two]
        congr 1
        omega
      _ ≤ N := lowN
  have settles := @reaches_iff N D hD ((N.log2 : Int) - D.log2)
  by_cases reached : (2 : ℚ) ^ ((N.log2 : Int) - D.log2) ≤ N / D
  · rw [ratioLog, if_pos (settles.mpr reached)]
    exact ⟨reached, below⟩
  · rw [ratioLog, if_neg (mt settles.mp reached), Int.sub_add_cancel]
    exact ⟨above, not_le.mp reached⟩

/-! ## Rounding to a format -/

/-- A quotient rounds to a significand that is within one half of it at the scale
of its leading bit, ties only to an even one. -/
theorem Format.ofRatio_of_near {f : Format} {N D S : Nat} {E : Int} (hN : 0 < N) (hD : 0 < D)
    (scale : max f.minExponent (ratioLog N D - f.precision) = E)
    (low : (S : ℚ) - 1 / 2 ≤ N / D / 2 ^ E) (high : (N : ℚ) / D / 2 ^ E ≤ S + 1 / 2)
    (tie : (S : ℚ) - 1 / 2 = N / D / 2 ^ E ∨ (N : ℚ) / D / 2 ^ E = S + 1 / 2 → S % 2 = 0) :
    f.ofRatio N D = f.magnitude S E := by
  have posD : (0 : ℚ) < D := by exact_mod_cast hD
  have posB : 0 < D * 2 ^ E.toNat := by positivity
  have parts : ((N * 2 ^ (-E).toNat : Nat) : ℚ)
      = N / D / 2 ^ E * (D * 2 ^ E.toNat : Nat) := by
    have power := two_zpow_pos E
    push_cast
    rw [← two_zpow_eq E]
    field_simp
  have posBQ : (0 : ℚ) < (D * 2 ^ E.toNat : Nat) := by exact_mod_cast posB
  rw [ofRatio, if_neg hN.ne']
  simp only [scale, Nat.pow_eq]
  congr 1
  generalize (N : ℚ) / D / 2 ^ E = x at *
  generalize N * 2 ^ (-E).toNat = A at *
  generalize D * 2 ^ E.toNat = B at *
  have lowNat : 2 * (S * B) ≤ 2 * A + B := by
    have scaled := mul_le_mul_of_nonneg_right low posBQ.le
    have : (2 * (S * B) : ℚ) ≤ 2 * A + B := by rw [parts]; linarith
    exact_mod_cast this
  have highNat : 2 * A ≤ 2 * (S * B) + B := by
    have scaled := mul_le_mul_of_nonneg_right high posBQ.le
    have : (2 * A : ℚ) ≤ 2 * (S * B) + B := by rw [parts]; linarith
    exact_mod_cast this
  refine roundDiv_eq posB lowNat highNat fun equal => tie ?_
  cases equal with
  | inl equal =>
    have equal : (2 * (S * B) : ℚ) = 2 * A + B := by exact_mod_cast equal
    refine .inl (mul_right_cancel₀ posBQ.ne' ?_)
    rw [parts] at equal
    linarith
  | inr equal =>
    have equal : (2 * A : ℚ) = 2 * (S * B) + B := by exact_mod_cast equal
    refine .inr (mul_right_cancel₀ posBQ.ne' ?_)
    rw [parts] at equal
    linarith

end GaugeExporter.Binary
