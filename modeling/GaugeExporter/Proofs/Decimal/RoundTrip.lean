import GaugeExporter.Proofs.Decimal.Shortest

/-!
# Finite doubles come back from their text

`Double.ofText?_write` reads every finite double back from its text, bit for bit
and with the sign of a zero.  The text may lay its digits out in either way.
The non-trivial ingredients are `pattern_of_finite`, which packs the parts of a
number into its pattern again, and `leading_bounds`: no double is so large or so
small that the reading of numerals gives up on it.
-/

namespace GaugeExporter.Decimal

open Binary

/-! ## Parts of a double -/

section Parts

variable {bits m : Nat} {e : Int} {negative : Bool}

theorem classify_finite {f : Format} (finite : f.classify bits = .finite negative m e) :
    negative = decide (bits / f.signBit % 2 = 1) ∧
      bits / 2 ^ f.precision % 2 ^ f.exponentBits ≠ f.topField ∧
      (bits / 2 ^ f.precision % 2 ^ f.exponentBits = 0 ∧ m = bits % 2 ^ f.precision ∧
          e = f.minExponent ∨
        bits / 2 ^ f.precision % 2 ^ f.exponentBits ≠ 0 ∧
          m = 2 ^ f.precision + bits % 2 ^ f.precision ∧
          e = f.minExponent + (bits / 2 ^ f.precision % 2 ^ f.exponentBits - 1 : Nat)) := by
  unfold Format.classify at finite
  simp only [Nat.pow_eq] at finite
  split at finite
  · split at finite <;> cases finite
  next notTop =>
    split at finite
    next low =>
      cases finite
      exact ⟨rfl, notTop, .inl ⟨low, rfl, rfl⟩⟩
    next notLow =>
      cases finite
      exact ⟨rfl, notTop, .inr ⟨notLow, rfl, rfl⟩⟩

theorem double_finite (finite : double.classify bits = .finite negative m e) :
    negative = decide (bits / 9223372036854775808 % 2 = 1) ∧
      bits / 4503599627370496 % 2048 ≠ 2047 ∧
      (bits / 4503599627370496 % 2048 = 0 ∧ m = bits % 4503599627370496 ∧ e = -1074 ∨
        bits / 4503599627370496 % 2048 ≠ 0 ∧
          m = 4503599627370496 + bits % 4503599627370496 ∧
          e = -1074 + (bits / 4503599627370496 % 2048 - 1 : Nat)) :=
  classify_finite finite

/-- The parts of a finite number are those of a canonical one, or of a zero. -/
theorem canonical_of_finite (finite : double.classify bits = .finite negative m e) :
    e ≤ 971 ∧ (m = 0 ∧ e = -1074 ∨ Canonical double m e) := by
  obtain ⟨-, notTop, parts⟩ := double_finite finite
  have field : bits / 4503599627370496 % 2048 < 2048 := Nat.mod_lt _ (by decide)
  have floor : double.minExponent = -1074 := by decide
  have width : double.precision = 52 := rfl
  refine ⟨by omega, ?_⟩
  by_cases zero : m = 0
  · exact .inl (by omega)
  · refine .inr ⟨by omega, by omega, ?_, fun above => ?_⟩
    · rw [width, show 2 ^ (52 + 1) = 9007199254740992 by norm_num]
      omega
    · rw [width, show 2 ^ 52 = 4503599627370496 by norm_num]
      omega

/-- Packing the parts of a finite number gives its pattern. -/
theorem pattern_of_finite (below : bits < 2 ^ 64)
    (finite : double.classify bits = .finite negative m e) :
    (if negative then double.signBit + double.magnitude m e else double.magnitude m e) = bits := by
  obtain ⟨rfl, notTop, parts⟩ := double_finite finite
  have field : bits / 4503599627370496 % 2048 < 2048 := Nat.mod_lt _ (by decide)
  have packed : double.magnitude m e = bits % 9223372036854775808 := by
    change min 9218868437227405312 ((e - -1074).toNat * 4503599627370496 + m) = _
    omega
  rw [packed, show double.signBit = 9223372036854775808 by decide]
  by_cases one : bits / 9223372036854775808 % 2 = 1
  · rw [if_pos (decide_eq_true one)]
    omega
  · rw [if_neg (by simpa using one)]
    omega

theorem classify_infinite {f : Format} {bits : Nat} {negative : Bool}
    (parts : f.classify bits = .infinite negative) :
    negative = decide (bits / f.signBit % 2 = 1) ∧
      bits / 2 ^ f.precision % 2 ^ f.exponentBits = f.topField ∧ bits % 2 ^ f.precision = 0 := by
  unfold Format.classify at parts
  simp only [Nat.pow_eq] at parts
  split at parts
  next top =>
    split at parts
    next none =>
      cases parts
      exact ⟨rfl, top, none⟩
    · cases parts
  · split at parts <;> cases parts

end Parts

/-! ## The reach of numerals -/

theorem digitCount_bounds {n : Nat} (positive : 0 < n) :
    10 ^ digitCount n ≤ 10 * n ∧ n < 10 ^ digitCount n := by
  induction n using digitCount.induct with
  | case1 n small =>
    rw [digitCount, if_pos small]
    omega
  | case2 n large ih =>
    obtain ⟨low, high⟩ := ih (by omega)
    rw [digitCount, if_neg large, pow_succ]
    omega

theorem digitCount_le {width n : Nat} (positive : 0 < width) (small : n < 10 ^ width) :
    digitCount n ≤ width := by
  rcases Nat.eq_zero_or_pos n with rfl | some
  · rw [digitCount]
    exact positive
  · obtain ⟨low, -⟩ := digitCount_bounds some
    have less : 10 ^ digitCount n < 10 ^ (width + 1) := by
      rw [pow_succ]
      omega
    exact Nat.le_of_lt_succ ((Nat.pow_lt_pow_iff_right (by decide)).mp less)

theorem value_bounds {d : Decimal} (positive : 0 < d.significand) :
    (10 : ℚ) ^ (d.exponent + digitCount d.significand) ≤ 10 * d.value ∧
      d.value < 10 ^ (d.exponent + digitCount d.significand) := by
  obtain ⟨low, high⟩ := digitCount_bounds positive
  have power : (0 : ℚ) < 10 ^ d.exponent := zpow_pos (by norm_num) _
  have low : (10 : ℚ) ^ digitCount d.significand ≤ 10 * d.significand := by exact_mod_cast low
  have high : (d.significand : ℚ) < 10 ^ digitCount d.significand := by exact_mod_cast high
  rw [zpow_add₀ (by norm_num), zpow_natCast, value, mul_comm ((10 : ℚ) ^ d.exponent), ← mul_assoc]
  exact ⟨mul_le_mul_of_nonneg_right low power.le, mul_lt_mul_of_pos_right high power⟩

theorem two_zpow_le_ten (n : Nat) : (2 : ℚ) ^ (3 * n) ≤ 10 ^ n := by
  rw [pow_mul]
  exact pow_le_pow_left₀ (by norm_num) (by norm_num) n

section Reach

variable {m : Nat} {e : Int} {q : ℚ}

theorem Near.lt_reach (canonical : Canonical double m e) (high : e ≤ 971)
    (near : Near double m e q) : q < 10 ^ (400 : Int) := by
  have power := two_zpow_pos e
  have atMost := near.high
  have room : (m : ℚ) + 1 ≤ 2 ^ 53 := by exact_mod_cast canonical.bound
  have scale : (2 : ℚ) ^ e ≤ 2 ^ (971 : Int) := zpow_le_zpow_right₀ (by norm_num) high
  rw [div_le_iff₀ power] at atMost
  calc q ≤ (m + 1 / 2) * 2 ^ e := atMost
    _ < 2 ^ 53 * 2 ^ e := mul_lt_mul_of_pos_right (by linarith) power
    _ ≤ 2 ^ 53 * 2 ^ (971 : Int) := mul_le_mul_of_nonneg_left scale (by positivity)
    _ = 2 ^ 1024 := by rw [← zpow_natCast, ← zpow_add₀ (by norm_num), ← zpow_natCast]; rfl
    _ ≤ 2 ^ (3 * 400) := pow_le_pow_right₀ (by norm_num) (by norm_num)
    _ ≤ 10 ^ 400 := two_zpow_le_ten 400
    _ = 10 ^ (400 : Int) := by rw [← zpow_natCast]; rfl

theorem Near.reach_lt (canonical : Canonical double m e) (near : Near double m e q) :
    10 ^ (-400 : Int) ≤ q := by
  have power := two_zpow_pos e
  have atLeast := near.low
  have one : (1 : ℚ) ≤ m := by exact_mod_cast canonical.positive
  have scale : (2 : ℚ) ^ (-1074 : Int) ≤ 2 ^ e :=
    zpow_le_zpow_right₀ (by norm_num) canonical.floor
  have tens := two_zpow_le_ten 400
  rw [le_div_iff₀ power] at atLeast
  calc (10 : ℚ) ^ (-400 : Int) = (10 ^ 400)⁻¹ := by rw [zpow_neg, ← zpow_natCast]; rfl
    _ ≤ (2 ^ (3 * 400))⁻¹ := inv_anti₀ (by positivity) (two_zpow_le_ten 400)
    _ ≤ (2 ^ 1075)⁻¹ := inv_anti₀ (by positivity) (pow_le_pow_right₀ (by norm_num) (by norm_num))
    _ = 1 / 2 * 2 ^ (-1074 : Int) := by
      rw [one_div, ← zpow_natCast, ← zpow_neg, ← zpow_neg_one, ← zpow_add₀ (by norm_num)]
      rfl
    _ ≤ (m - 1 / 2) * 2 ^ e := mul_le_mul (by linarith) scale (two_zpow_pos _).le (by linarith)
    _ ≤ q := atLeast

/-- The reading of numerals gives up on no decimal near a double. -/
theorem leading_bounds {d : Decimal} (canonical : Canonical double m e) (high : e ≤ 971)
    (near : Near double m e d.value) (positive : 0 < d.significand) :
    -reach ≤ d.exponent + digitCount d.significand ∧
      d.exponent + digitCount d.significand ≤ reach := by
  obtain ⟨low, top⟩ := value_bounds positive
  have ten : (1 : ℚ) < 10 := by norm_num
  constructor
  · have := (zpow_lt_zpow_iff_right₀ ten).mp ((near.reach_lt canonical).trans_lt top)
    exact this.le
  · have below : (10 : ℚ) ^ (d.exponent + digitCount d.significand) < 10 ^ (400 + 1 : Int) := by
      rw [zpow_add_one₀ (by norm_num)]
      have := near.lt_reach canonical high
      linarith
    have := (zpow_lt_zpow_iff_right₀ ten).mp below
    rw [reach]
    omega

end Reach

/-! ## Reading back -/

theorem quotient_eq_value (d : Decimal) :
    ((d.significand * Nat.pow 10 d.exponent.toNat : Nat) : ℚ)
      / (Nat.pow 10 (-d.exponent).toNat : Nat) = d.value := by
  have ten := zpow_mul_toNat (by norm_num : (10 : ℚ) ≠ 0) d.exponent
  have positive : (0 : ℚ) < 10 ^ (-d.exponent).toNat := by positivity
  simp only [Nat.pow_eq]
  push_cast
  rw [div_eq_iff positive.ne', value, mul_assoc, ten]

theorem significand_eq_zero_iff (d : Decimal) : d.significand = 0 ↔ d.value = 0 := by
  have power : (10 : ℚ) ^ d.exponent ≠ 0 := (zpow_pos (by norm_num) _).ne'
  rw [value, mul_eq_zero, or_iff_left power]
  exact_mod_cast Iff.rfl

/-- No decimal of the interval of a positive number is zero. -/
theorem significand_pos {f : Format} {m : Nat} {e : Int} {d : Decimal} (positive : 0 < m)
    (contains : (Interval.around f m e).Contains d.value) : 0 < d.significand := by
  refine Nat.pos_of_ne_zero fun zero => ?_
  have number := (near_of_contains positive contains).pos positive
  rw [(significand_eq_zero_iff d).mp zero] at number
  exact lt_irrefl 0 number

theorem ofNatBits_toNat (x : Double) : Double.ofNatBits x.bits.toNat = x := by
  rw [Double.ofNatBits, UInt64.ofNat_toNat]

/-- The sign is all that an infinity has. -/
theorem eq_infinite {x : Double} {negative : Bool} (parts : x.number = .infinite negative) :
    x = .infinite negative := by
  have below : x.bits.toNat < 18446744073709551616 := UInt64.toNat_lt x.bits
  have fields : negative = decide (x.bits.toNat / 9223372036854775808 % 2 = 1) ∧
      x.bits.toNat / 4503599627370496 % 2048 = 2047 ∧ x.bits.toNat % 4503599627370496 = 0 :=
    classify_infinite parts
  rw [← ofNatBits_toNat x]
  cases negative with
  | false =>
    have bits : x.bits.toNat = 0x7ff0000000000000 := by
      have := of_decide_eq_false fields.1.symm
      omega
    rw [bits]
    rfl
  | true =>
    have bits : x.bits.toNat = 0xfff0000000000000 := by
      have := of_decide_eq_true fields.1.symm
      omega
    rw [bits]
    rfl

section ToDouble

variable {x : Double} {negative : Bool} {m : Nat} {e : Int} {d : Decimal}

/-- A decimal in the interval around a double becomes the double. -/
theorem toDouble_of_contains (finite : x.number = .finite negative m e)
    (canonical : Canonical double m e) (high : e ≤ 971)
    (contains : (Interval.around double m e).Contains d.value) : toDouble negative d = x := by
  have packed := pattern_of_finite (UInt64.toNat_lt _) finite
  have near := near_of_contains canonical.positive contains
  have positive := significand_pos canonical.positive contains
  have bounds := leading_bounds canonical high near positive
  have rounds := ofRatio_of_contains canonical
    (Nat.mul_pos positive (@Nat.pow_pos 10 d.exponent.toNat (by decide)))
    (@Nat.pow_pos 10 (-d.exponent).toNat (by decide)) (quotient_eq_value d ▸ contains)
  rw [toDouble, if_neg (by omega), if_neg (by omega), Double.ofRatio]
  simp only [Nat.pow_eq]
  rw [rounds, packed, ofNatBits_toNat]

/-- The sign is all that a zero has. -/
theorem eq_zero_of_parts (finite : x.number = .finite negative 0 (-1074)) :
    x = .zero negative := by
  have packed := pattern_of_finite (UInt64.toNat_lt _) finite
  rw [← ofNatBits_toNat x, ← packed]
  cases negative with
  | false => decide
  | true => decide

/-- Any decimal with the value of the shortest one becomes the double again. -/
theorem toDouble_of_value (finite : x.number = .finite negative m e)
    (same : d.value = (shortest double m e).value) : toDouble negative d = x := by
  obtain ⟨high, zero | canonical⟩ := canonical_of_finite finite
  · obtain ⟨rfl, rfl⟩ := zero
    have vanishes : d.value = 0 := same.trans (value_eq_zero 0)
    rw [toDouble, if_pos (.inl ((significand_eq_zero_iff d).mpr vanishes)), eq_zero_of_parts finite]
  · exact toDouble_of_contains finite canonical high
      (same ▸ shortest_contains canonical.positive)

end ToDouble

theorem head_layout {d : Decimal} {text : List Char}
    (layout : text = d.positional ∨ text = d.scientific) :
    ∃ c rest, text = c :: rest ∧ c.isDigit = true := by
  obtain ⟨c, rest, split⟩ := List.exists_cons_of_ne_nil (digits_ne_nil d.significand)
  have digit : c.isDigit = true := digits_allDigits d.significand c (split ▸ List.mem_cons_self)
  cases layout with
  | inl positional =>
    rw [positional, Decimal.positional, split]
    simp only
    split
    · split
      · exact ⟨'0', _, rfl, rfl⟩
      · exact ⟨c, _, rfl, digit⟩
    · split
      next inside =>
        obtain ⟨k, front⟩ : ∃ k, (c :: rest).length - (-d.exponent).toNat = k + 1 :=
          ⟨(c :: rest).length - (-d.exponent).toNat - 1, by omega⟩
        rw [front]
        exact ⟨c, _, rfl, digit⟩
      · exact ⟨'0', _, rfl, rfl⟩
  | inr scientific =>
    rw [scientific, Decimal.scientific, split]
    cases rest with
    | nil => exact ⟨c, _, rfl, digit⟩
    | cons second rest => exact ⟨c, _, rfl, digit⟩

theorem toLower_digit {c : Char} (digit : c.isDigit = true) : c.toLower = c := by
  have bounds := Char.isDigit_iff_toNat.mp digit
  have notUpper : ¬ (c.val ≥ 'A'.val ∧ c.val ≤ 'Z'.val) := fun upper =>
    absurd (Nat.le_trans (UInt32.le_iff_toNat_le.mp upper.1) bounds.2) (by decide)
  exact dif_neg notUpper

/-- A text that begins with a digit is no name. -/
theorem named?_digit {c : Char} (negative : Bool) (rest : List Char) (digit : c.isDigit = true) :
    named? negative (c :: rest) = none := by
  have other : ∀ first word, first.isDigit = false →
      c :: rest.map Char.toLower ≠ first :: word := by
    intro first word letter same
    rw [(List.cons.inj same).1, letter] at digit
    cases digit
  rw [named?, List.map_cons, toLower_digit digit]
  exact (if_neg (not_or.mpr ⟨other 'i' _ rfl, other 'i' _ rfl⟩)).trans (if_neg (other 'n' _ rfl))

theorem sign_write {negative : Bool} {text : List Char}
    (first : ∀ c, text.head? = some c → c.isDigit = true) :
    sign (if negative then '-' :: text else text) = (negative, text) := by
  cases negative with
  | false => exact sign_digits first
  | true => rfl

end GaugeExporter.Decimal

namespace GaugeExporter.Binary.Double

open Decimal

theorem parts_of_finite {x : Double} (finite : x.isFinite = true) :
    ∃ negative m e, x.number = .finite negative m e := by
  rw [isFinite] at finite
  cases parts : x.number with
  | nan => rw [parts] at finite; cases finite
  | infinite negative => rw [parts] at finite; cases finite
  | finite negative m e => exact ⟨negative, m, e, rfl⟩

/-- A finite double is read back from any text that lays its digits out. -/
theorem ofText?_write {style : Text.Style}
    (layout : ∀ d, style.magnitude d = d.positional ∨ style.magnitude d = d.scientific) {x : Double}
    (finite : x.isFinite = true) : ofText? (Text.write style double x.bits.toNat) = some x := by
  obtain ⟨negative, m, e, parts⟩ := parts_of_finite finite
  obtain ⟨c, rest, split, digit⟩ := head_layout (layout (shortest double m e))
  obtain ⟨d, read, same⟩ := unsigned?_of_layout (layout (shortest double m e))
  have first : ∀ a, (style.magnitude (shortest double m e)).head? = some a →
      a.isDigit = true := by
    rw [split]
    rintro a ⟨⟩
    exact digit
  rw [Text.write_finite style parts, ofText?, sign_write first]
  simp only
  rw [read, split, named?_digit negative rest digit]
  exact congrArg some (toDouble_of_value parts same)

end GaugeExporter.Binary.Double
