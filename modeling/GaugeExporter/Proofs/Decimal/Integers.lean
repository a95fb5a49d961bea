import GaugeExporter.Proofs.Decimal.Nearest

/-!
# Integers as doubles

`Double.nearest_ofInt` says that an integer of 64 bits becomes the double nearest to it,
ties to the even significand.  An integer of at most 53 binary digits is a significand at
some scale; a longer one lies between two of them (`exists_near`), and the upper one may be
the power of two above, at the next scale.  Everything in the interval around a double
rounds to it, so what is left is that packing the parts of a double and taking them apart
again gives the same parts (`classify_packed`).
-/

namespace GaugeExporter.Decimal

open Binary

section Parts

variable {m : Nat} {e : Int}

theorem double_classify {bits : Nat} (notTop : bits / 4503599627370496 % 2048 ≠ 2047) :
    double.classify bits = .finite (decide (bits / 9223372036854775808 % 2 = 1))
      (if bits / 4503599627370496 % 2048 = 0 then bits % 4503599627370496
        else 4503599627370496 + bits % 4503599627370496)
      (-1074 + (bits / 4503599627370496 % 2048 - 1 : Nat)) := by
  have top : double.topField = 2047 := by decide
  have sign : double.signBit = 9223372036854775808 := by decide
  have floor : double.minExponent = -1074 := by decide
  have fraction : Nat.pow 2 double.precision = 4503599627370496 := rfl
  have fields : Nat.pow 2 double.exponentBits = 2048 := rfl
  simp only [Format.classify, top, sign, floor, fraction, fields, if_neg notTop]
  split
  next low => simp [low]
  next => rfl

/-- The pattern of parts has these parts. -/
theorem classify_packed (canonical : Canonical double m e) (high : e ≤ 971) (negative : Bool) :
    double.classify
        (if negative then double.signBit + double.magnitude m e else double.magnitude m e)
      = .finite negative m e := by
  have floor : -1074 ≤ e := canonical.floor
  have positive := canonical.positive
  have bound : m < 9007199254740992 := canonical.bound
  have leading : -1074 < e → 4503599627370496 ≤ m := canonical.leading
  have packed : double.magnitude m e = (e + 1074).toNat * 4503599627370496 + m := by
    change min 9218868437227405312 ((e - -1074).toNat * 4503599627370496 + m) = _
    omega
  have sign : double.signBit = 9223372036854775808 := by decide
  rw [packed, sign]
  obtain ⟨k, rfl⟩ : ∃ k : Nat, e = k - 1074 := ⟨(e + 1074).toNat, by omega⟩
  have steps : ((k : Int) - 1074 + 1074).toNat = k := by omega
  rw [steps]
  generalize packs : (if negative then 9223372036854775808 + (k * 4503599627370496 + m)
    else k * 4503599627370496 + m) = bits
  have field : bits / 4503599627370496 % 2048 = if m < 4503599627370496 then 0 else k + 1 := by
    subst packs
    cases negative <;> simp only [if_true, Bool.false_eq_true, if_false] <;> split <;> omega
  have fraction : bits % 4503599627370496 = m % 4503599627370496 := by
    subst packs
    cases negative <;> simp only [if_true, Bool.false_eq_true, if_false] <;> omega
  have signed : decide (bits / 9223372036854775808 % 2 = 1) = negative := by
    subst packs
    cases negative <;> simp only [if_true, Bool.false_eq_true, if_false]
    · exact decide_eq_false (by omega)
    · exact decide_eq_true (by omega)
  rw [double_classify (by rw [field]; split <;> omega), field, fraction, signed]
  by_cases low : m < 4503599627370496
  · have lowest : k = 0 := by omega
    rw [if_pos low, if_pos rfl, Nat.mod_eq_of_lt low, lowest]
    rfl
  · rw [if_neg low, if_neg (Nat.succ_ne_zero k)]
    congr 1
    omega

theorem contains_of_near {q : ℚ} (positive : 0 < m) (near : Near double m e q) :
    (Interval.around double m e).Contains q := by
  rw [contains_around positive]
  have width : double.precision = 52 := rfl
  split
  next even =>
    refine ⟨?_, near.high⟩
    split
    next isPower => exact near.power isPower.1 isPower.2
    next => exact near.low
  next odd =>
    have noPower : ¬ (m = 2 ^ double.precision ∧ double.minExponent < e) := by
      rintro ⟨rfl, -⟩
      exact odd (by rw [width]; norm_num)
    rw [if_neg noPower]
    constructor
    · exact lt_of_le_of_ne near.low fun touches => odd (near.tie (.inl touches))
    · exact lt_of_le_of_ne near.high fun touches => odd (near.tie (.inr touches))

end Parts

/-! ## Between two significands -/

section Between

variable {x t : ℚ} {q : Nat} {e : Int} (parts : x / 2 ^ e = q + t)
include parts

theorem near_lower (nonneg : 0 ≤ t) (half : t ≤ 1 / 2) (even : t = 1 / 2 → q % 2 = 0) :
    Near double q e x := by
  refine ⟨?_, ?_, fun touches => even ?_, fun _ _ => ?_⟩
  · linarith
  · linarith
  · obtain atLow | atHigh := touches <;> linarith
  · linarith

theorem near_upper (below : t < 1) (half : 1 / 2 ≤ t) (odd : t = 1 / 2 → q % 2 = 1)
    (inside : 4503599627370496 ≤ q) : Near double (q + 1) e x := by
  have width : double.precision = 52 := rfl
  refine ⟨?_, ?_, fun touches => ?_, fun isPower _ => ?_⟩
  · rw [parts]
    push_cast
    linarith
  · rw [parts]
    push_cast
    linarith
  · rw [parts] at touches
    push_cast at touches
    have tie : t = 1 / 2 := by
      obtain atLow | atHigh := touches <;> linarith
    have := odd tie
    omega
  · rw [width] at isPower
    omega

/-- Above the last significand of a scale comes the first one of the next. -/
theorem near_carried (last : q = 9007199254740991) (below : t < 1) (half : 1 / 2 ≤ t) :
    Near double 4503599627370496 (e + 1) x := by
  subst last
  have scale : x / 2 ^ (e + 1) = (9007199254740991 + t) / 2 := by
    rw [zpow_add_one₀ (by norm_num), ← div_div, parts]
    push_cast
    rfl
  refine ⟨?_, ?_, fun _ => rfl, fun _ _ => ?_⟩ <;> rw [scale] <;> push_cast <;> linarith

end Between

/-- The quotient by a power of two in terms of its whole part and what remains. -/
theorem quotient_parts {N q r s : Nat} (division : N = q * 2 ^ s + r) (remainder : r < 2 ^ s) :
    ∃ t : ℚ, (N : ℚ) / 2 ^ (s : Int) = q + t ∧ 0 ≤ t ∧ t < 1 := by
  have power : (0 : ℚ) < 2 ^ s := by positivity
  refine ⟨r / 2 ^ s, ?_, by positivity, ?_⟩
  · rw [division, zpow_natCast]
    push_cast
    field_simp
  · rw [div_lt_one power]
    exact_mod_cast remainder

/-- A number between two significands is near the closer one, or the even one if it lies
in the middle. -/
theorem exists_near_between {x t : ℚ} {q s : Nat} (parts : x / 2 ^ (s : Int) = q + t)
    (nonneg : 0 ≤ t) (below : t < 1) (low : 4503599627370496 ≤ q) (high : q < 9007199254740992) :
    ∃ m e, Canonical double m e ∧ e ≤ s + 1 ∧ Near double m e x := by
  have width : double.precision = 52 := rfl
  have floor : double.minExponent = -1074 := by decide
  by_cases down : t ≤ 1 / 2 ∧ (t = 1 / 2 → q % 2 = 0)
  · exact ⟨q, s, ⟨by omega, by omega, high, fun _ => low⟩, by omega,
      near_lower parts nonneg down.1 down.2⟩
  have half : 1 / 2 ≤ t := by
    by_contra small
    exact down ⟨(not_le.mp small).le, fun tie => absurd tie.ge small⟩
  have odd (tie : t = 1 / 2) : q % 2 = 1 := by
    have notEven : q % 2 ≠ 0 := fun even => down ⟨tie.le, fun _ => even⟩
    omega
  by_cases carry : q + 1 < 9007199254740992
  · refine ⟨q + 1, s, ⟨by omega, by omega, carry, fun _ => ?_⟩, by omega,
      near_upper parts below half odd low⟩
    rw [width]
    omega
  · refine ⟨4503599627370496, s + 1, ⟨by omega, by omega, by rw [width]; omega, fun _ => ?_⟩,
      by omega, near_carried parts (by omega) below half⟩
    rw [width]
    omega

/-- An integer whose digits fit in the significand is a double. -/
theorem exists_near_short {N k : Nat} (above : 2 ^ k ≤ N) (below : N < 2 ^ (k + 1))
    (short : k ≤ 52) : ∃ m e, Canonical double m e ∧ e ≤ 971 ∧ Near double m e N := by
  have floor : double.minExponent = -1074 := by decide
  have power : 0 < 2 ^ (52 - k) := by positivity
  have least : 2 ^ k * 2 ^ (52 - k) = 4503599627370496 := by
    rw [← pow_add, Nat.add_sub_cancel' short]
    rfl
  have exact : ((N * 2 ^ (52 - k) : Nat) : ℚ) * 2 ^ ((k : Int) - 52) = N := by
    have scale : (k : Int) - 52 = -((52 - k : Nat) : Int) := by omega
    rw [scale, zpow_neg, zpow_natCast]
    push_cast
    field_simp
  have lower := Nat.mul_le_mul_right (2 ^ (52 - k)) above
  have upper := Nat.mul_lt_mul_of_pos_right below power
  rw [least] at lower
  rw [pow_succ, Nat.mul_right_comm, least] at upper
  have filled : 0 < N * 2 ^ (52 - k) := by omega
  refine ⟨N * 2 ^ (52 - k), k - 52, ⟨by omega, filled, upper, fun _ => lower⟩, by omega, ?_⟩
  rw [← exact]
  exact near_of_contains filled (around_contains_centre filled)

/-- A positive integer of 64 bits is near a double. -/
theorem exists_near {N : Nat} (positive : 0 < N) (bound : N < 2 ^ 64) :
    ∃ m e, Canonical double m e ∧ e ≤ 971 ∧ Near double m e N := by
  have above : 2 ^ N.log2 ≤ N := Nat.log2_self_le positive.ne'
  have below : N < 2 ^ (N.log2 + 1) := Nat.lt_log2_self
  have log : N.log2 < 64 := (Nat.log2_lt positive.ne').mpr bound
  generalize N.log2 = k at above below log
  by_cases short : k ≤ 52
  · exact exists_near_short above below short
  · obtain ⟨s, rfl⟩ : ∃ s, k = 52 + s := ⟨k - 52, by omega⟩
    have power : 0 < 2 ^ s := by positivity
    have lower : 4503599627370496 ≤ N / 2 ^ s := by
      rw [Nat.le_div_iff_mul_le power]
      rwa [pow_add] at above
    have upper : N / 2 ^ s < 9007199254740992 := by
      rw [Nat.div_lt_iff_lt_mul power]
      rwa [pow_succ, pow_add, Nat.mul_right_comm] at below
    have division : N = N / 2 ^ s * 2 ^ s + N % 2 ^ s := by rw [mul_comm, Nat.div_add_mod]
    obtain ⟨t, parts, nonneg, less⟩ := quotient_parts division (Nat.mod_lt N power)
    obtain ⟨m, e, canonical, high, near⟩ := exists_near_between parts nonneg less lower upper
    exact ⟨m, e, canonical, by omega, near⟩

end GaugeExporter.Decimal

namespace GaugeExporter.Binary

open Decimal

/-- An integer of 64 bits becomes the double nearest to it, ties to even. -/
theorem Double.nearest_ofInt {n : Int} (bound : n.natAbs < 2 ^ 64) :
    (Double.ofInt n).Nearest n := by
  rcases Nat.eq_zero_or_pos n.natAbs with zero | positive
  · obtain rfl := Int.natAbs_eq_zero.mp zero
    have parts : (Double.ofInt 0).number = .finite false 0 (-1074) := by decide
    have nearest := nearest_zero parts
    simpa [signed] using nearest
  · obtain ⟨m, e, canonical, high, near⟩ := exists_near positive bound
    have contains := contains_of_near canonical.positive near
    have rounds : double.ofRatio n.natAbs 1 = double.magnitude m e :=
      ofRatio_of_contains canonical positive Nat.one_pos (by simpa using contains)
    have parts : (Double.ofInt n).number = .finite (decide (n < 0)) m e := by
      have fits : (if decide (n < 0) then double.signBit + double.magnitude m e
          else double.magnitude m e) < 2 ^ 64 := by
        have least : double.magnitude m e ≤ 9218868437227405312 := Nat.min_le_left _ _
        have sign : double.signBit = 9223372036854775808 := by decide
        split <;> omega
      rw [Double.ofInt, Double.ofRatio, rounds, Double.number, Double.ofNatBits,
        UInt64.toNat_ofNat_of_lt' fits]
      exact classify_packed canonical high _
    have value : (n : ℚ) = signed (decide (n < 0)) n.natAbs := by
      have whole : (n.natAbs : ℚ) = |(n : ℚ)| := by rw [Nat.cast_natAbs, Int.cast_abs]
      rw [signed, whole]
      by_cases negative : n < 0
      · have below : (n : ℚ) < 0 := by exact_mod_cast negative
        rw [if_pos (decide_eq_true negative), abs_of_neg below, neg_neg]
      · have above : (0 : ℚ) ≤ n := by exact_mod_cast Int.not_lt.mp negative
        rw [if_neg (by simpa using negative), abs_of_nonneg above]
    rw [value]
    exact (nearest_iff parts canonical.positive).mpr contains

end GaugeExporter.Binary
