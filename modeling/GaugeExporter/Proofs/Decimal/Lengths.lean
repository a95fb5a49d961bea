import GaugeExporter.Proofs.Decimal.Fewest

/-!
# Lengths of layouts

How long the two layouts of a decimal are, and that the layouts of the shortest
decimal of a double are no longer than those of any other decimal in its
interval.  Fewest digits alone do not say so: close to a power of ten another
decimal has a lower leading power, and a text may have zeros in front.  The
non-trivial ingredient is `aligned`: the numbers that round to a normal double
are so close together that such a decimal lies below a power of ten, which is
then the shortest decimal itself (`scientific_shortest`, `positional_shortest`).
-/

namespace GaugeExporter.Decimal

open Binary

/-! ## Counts of digits -/

theorem lt_pow_digitCount (n : Nat) : n < 10 ^ digitCount n := by
  rcases Nat.eq_zero_or_pos n with rfl | positive
  · positivity
  · exact (digitCount_bounds positive).2

theorem digitCount_mono {a b : Nat} (le : a ≤ b) : digitCount a ≤ digitCount b :=
  digitCount_le (digitCount_pos b) (Nat.lt_of_le_of_lt le (lt_pow_digitCount b))

theorem digitCount_succ_le (n : Nat) : digitCount (n + 1) ≤ digitCount n + 1 := by
  apply digitCount_le (Nat.succ_pos _)
  have := lt_pow_digitCount n
  rw [pow_succ]
  omega

theorem length_integer (n : Int) :
    (integer n).length = digitCount n.natAbs + if n < 0 then 1 else 0 := by
  unfold integer
  split
  · rw [List.length_cons, length_digits]
  · rw [length_digits, Nat.add_zero]

/-- Neighbouring integers differ by at most one character. -/
theorem length_integer_succ (n : Int) :
    (integer n).length ≤ (integer (n + 1)).length + 1 ∧
      (integer (n + 1)).length ≤ (integer n).length + 1 := by
  rw [length_integer, length_integer]
  rcases lt_trichotomy n (-1) with negative | rfl | natural
  · have up : n.natAbs = (n + 1).natAbs + 1 := by omega
    have step := digitCount_succ_le (n + 1).natAbs
    have mono := digitCount_mono (Nat.le_add_right (n + 1).natAbs 1)
    rw [up]
    split <;> split <;> omega
  · simp [digitCount]
  · have up : (n + 1).natAbs = n.natAbs + 1 := by omega
    have step := digitCount_succ_le n.natAbs
    have mono := digitCount_mono (Nat.le_add_right n.natAbs 1)
    rw [up]
    split <;> split <;> omega

theorem length_integer_add (n : Int) (k : Nat) :
    (integer n).length ≤ (integer (n + k)).length + k := by
  induction k with
  | zero => simp
  | succ k ih =>
    have step := (length_integer_succ (n + k)).1
    rw [Nat.cast_add_one, ← Int.add_assoc]
    omega

/-! ## Lengths of the layouts -/

theorem length_scientific {d : Decimal} (positive : 0 < d.significand) :
    d.scientific.length = digitCount d.significand + (if digitCount d.significand = 1 then 0 else 1)
      + 1 + (integer d.power).length := by
  have some : d.significand ≠ 0 := positive.ne'
  have count := length_digits d.significand
  have leading : d.exponent + (digitCount d.significand - 1 : Nat) = d.power := by
    have := digitCount_pos d.significand
    rw [power]
    omega
  rw [scientific]
  simp only [if_neg some, count, leading, List.length_append, List.length_cons]
  split
  next first second rest shape =>
    rw [shape, List.length_cons, List.length_cons] at count
    rw [List.length_cons, List.length_cons, List.length_cons, if_neg (by omega)]
    omega
  next short =>
    cases shape : digits d.significand with
    | nil => exact absurd shape (digits_ne_nil _)
    | cons first rest =>
      cases rest with
      | nil =>
        rw [shape] at count
        rw [← count, List.length_singleton, if_pos rfl]
        omega
      | cons second rest => exact absurd shape (short first second rest)

theorem length_positional {d : Decimal} (positive : 0 < d.significand) :
    (d.positional.length : Int)
      = if 0 ≤ d.exponent then d.power + 1 else max (d.power + 1) 1 + 1 - d.exponent := by
  split
  next whole =>
    simp only [positional, if_pos whole, if_neg positive.ne', List.length_append, length_digits,
      List.length_replicate, power]
    omega
  next fractional =>
    have count := length_digits d.significand
    simp only [positional, if_neg fractional, power]
    split
    · simp only [List.length_append, List.length_take, List.length_cons, List.length_drop]
      omega
    · simp only [List.length_append, List.length_replicate, List.length_cons]
      omega

/-! ## Doubles in tens -/

section Doubles

variable {m : Nat} {e : Int} {a b : ℚ}

/-- What rounds to a normal double differs in the sixteenth digit at most. -/
theorem Canonical.close (canonical : Canonical double m e) (normal : 2 ^ 52 ≤ m)
    (first : (Interval.around double m e).Contains a)
    (second : (Interval.around double m e).Contains b) : 10 ^ 15 * (b - a) < a := by
  have power := two_zpow_pos e
  have normal : (2 : ℚ) ^ 52 ≤ m := by exact_mod_cast normal
  have low := (near_of_contains canonical.positive first).low
  have high := (near_of_contains canonical.positive second).high
  rw [← div_lt_div_iff_of_pos_right power, mul_div_assoc, sub_div]
  linarith

/-- What rounds to a subnormal double is tiny. -/
theorem Canonical.tiny (canonical : Canonical double m e) (subnormal : m < 2 ^ 52)
    (inside : (Interval.around double m e).Contains a) : a < 10 ^ (-300 : Int) := by
  have power := two_zpow_pos e
  have lowest : e = -1074 := by
    have floor : double.minExponent = -1074 := by decide
    have := canonical.floor
    by_contra above
    exact absurd (canonical.leading (by omega)) (by simpa [double] using subnormal)
  have room : (m : ℚ) + 1 ≤ 2 ^ 52 := by exact_mod_cast subnormal
  have high := (near_of_contains canonical.positive inside).high
  rw [div_le_iff₀ power] at high
  calc a ≤ (m + 1 / 2) * 2 ^ e := high
    _ < 2 ^ 52 * 2 ^ e := mul_lt_mul_of_pos_right (by linarith) power
    _ = (2 ^ 1022)⁻¹ := by
      rw [lowest, ← zpow_natCast, ← zpow_add₀ (by norm_num), ← zpow_natCast, ← zpow_neg]
      rfl
    _ ≤ (2 ^ (10 * 100))⁻¹ :=
      inv_anti₀ (by positivity) (pow_le_pow_right₀ (by norm_num) (by norm_num))
    _ ≤ (10 ^ (3 * 100))⁻¹ := by
      refine inv_anti₀ (by positivity) ?_
      rw [pow_mul, pow_mul]
      exact pow_le_pow_left₀ (by norm_num) (by norm_num) 100
    _ = 10 ^ (-300 : Int) := by rw [zpow_neg]; rfl

/-- The leading power of a decimal near a double has at most three digits. -/
theorem Canonical.power_bounds (canonical : Canonical double m e) (high : e ≤ 971) {c : Decimal}
    (positive : 0 < c.significand) (inside : (Interval.around double m e).Contains c.value) :
    -401 ≤ c.power ∧ c.power ≤ 399 := by
  have bounds := leading_bounds canonical high (near_of_contains canonical.positive inside) positive
  rw [reach] at bounds
  rw [power]
  omega

/-! ## Leading powers -/

/-- A decimal of one digit. -/
theorem value_digit {d : Decimal} (single : digitCount d.significand = 1) :
    d.significand < 10 ∧ d.value = d.significand * 10 ^ d.power := by
  have bound := lt_pow_digitCount d.significand
  rw [single, pow_one] at bound
  refine ⟨bound, ?_⟩
  rw [value, power, single]
  simp

/-- A power of ten that rounds to the double leaves a single digit. -/
theorem Canonical.single (canonical : Canonical double m e) {k : Int}
    (power : (Interval.around double m e).Contains (10 ^ k)) :
    digitCount (shortest double m e).significand = 1 := by
  refine le_antisymm ?_ (digitCount_pos _)
  have fewest := shortest_fewest canonical (c := ⟨1, k⟩) Nat.one_pos (by rwa [value_one])
  rwa [digitCount_one] at fewest

/-- What rounds to the same normal double has the leading power of the shortest
decimal, unless that is a power of ten: then it can lie just below. -/
theorem Canonical.aligned (canonical : Canonical double m e) (normal : 2 ^ 52 ≤ m) {c : Decimal}
    (positive : 0 < c.significand) (inside : (Interval.around double m e).Contains c.value) :
    c.power = (shortest double m e).power ∨
      digitCount (shortest double m e).significand = 1 ∧
        c.power + 1 = (shortest double m e).power ∧ 1 < digitCount c.significand ∧
        10 ^ 15 * ((10 : ℚ) ^ (shortest double m e).power - c.value) < c.value ∧
        c.value < 10 ^ (shortest double m e).power := by
  have shortestInside := shortest_contains (f := double) (e := e) canonical.positive
  have shortestPos := significand_pos canonical.positive shortestInside
  obtain ⟨low, high⟩ := power_spec positive
  obtain ⟨shortestLow, shortestHigh⟩ := power_spec shortestPos
  rcases lt_trichotomy c.power (shortest double m e).power with less | same | more
  · right
    have below : c.value < 10 ^ (shortest double m e).power :=
      high.trans_le (zpow_le_zpow_right₀ (by norm_num) (by omega))
    have between := inside.between shortestInside below.le shortestLow
    have close := canonical.close normal inside between
    have tenth : (10 : ℚ) ^ (shortest double m e).power
        = 10 * 10 ^ ((shortest double m e).power - 1) := by
      rw [zpow_sub_one₀ (by norm_num)]
      ring
    have scale := ten_zpow_pos ((shortest double m e).power - 1)
    have next : c.power + 1 = (shortest double m e).power := by
      have reached : (10 : ℚ) ^ ((shortest double m e).power - 1) < 10 ^ (c.power + 1) := by
        refine lt_trans ?_ high
        linarith
      rw [zpow_lt_zpow_iff_right₀ (by norm_num)] at reached
      omega
    refine ⟨canonical.single between, next, ?_, close, below⟩
    by_contra fewer
    obtain ⟨digit, number⟩ := value_digit (d := c) (by have := digitCount_pos c.significand; omega)
    have digit : (c.significand : ℚ) ≤ 9 := by exact_mod_cast Nat.le_of_lt_succ digit
    rw [← next, Int.add_sub_cancel] at tenth scale
    have := mul_le_mul_of_nonneg_right digit scale.le
    rw [← next] at close
    linarith
  · exact .inl same
  · exfalso
    have above : (10 : ℚ) ^ ((shortest double m e).power + 1) ≤ c.value :=
      le_trans (zpow_le_zpow_right₀ (by norm_num) (by omega)) low
    have between := shortestInside.between inside shortestHigh.le above
    obtain ⟨digit, number⟩ := value_digit (canonical.single between)
    have digit : ((shortest double m e).significand : ℚ) ≤ 9 := by
      exact_mod_cast Nat.le_of_lt_succ digit
    have close := canonical.close normal shortestInside between
    have scale := ten_zpow_pos (shortest double m e).power
    have := mul_le_mul_of_nonneg_right digit scale.le
    rw [zpow_add_one₀ (by norm_num)] at close
    linarith

/-- The leading powers near a subnormal double have three digits. -/
theorem Canonical.power_tiny (canonical : Canonical double m e) (high : e ≤ 971)
    (subnormal : m < 2 ^ 52) {c : Decimal} (positive : 0 < c.significand)
    (inside : (Interval.around double m e).Contains c.value) : (integer c.power).length = 4 := by
  have bounds := canonical.power_bounds high positive inside
  have tiny := (power_spec positive).1.trans_lt (canonical.tiny subnormal inside)
  rw [zpow_lt_zpow_iff_right₀ (by norm_num)] at tiny
  have three : digitCount c.power.natAbs = 3 := by
    refine le_antisymm (digitCount_le (by decide) (by omega)) ?_
    refine le_trans ?_ (digitCount_mono (show 100 ≤ c.power.natAbs by omega))
    simp [digitCount]
  rw [length_integer, three, if_pos (by omega)]

/-- A whole number differs from a power of ten by one at least. -/
theorem large_power {n p : Nat} (below : (n : ℚ) < 10 ^ p)
    (close : 10 ^ 15 * ((10 : ℚ) ^ p - n) < n) : 15 < p := by
  have next : n + 1 ≤ 10 ^ p := by exact_mod_cast below
  have next : (n : ℚ) + 1 ≤ 10 ^ p := by exact_mod_cast next
  have large : (10 : ℚ) ^ 15 < 10 ^ p := by linarith
  exact (pow_lt_pow_iff_right₀ (by norm_num)).mp large

/-! ## The shortest layouts -/

/-- No decimal of the interval has a shorter scientific layout. -/
theorem scientific_shortest (canonical : Canonical double m e) (high : e ≤ 971) {c : Decimal}
    (positive : 0 < c.significand) (inside : (Interval.around double m e).Contains c.value) :
    (shortest double m e).scientific.length ≤ c.scientific.length := by
  have shortestInside := shortest_contains (f := double) (e := e) canonical.positive
  have shortestPos := significand_pos canonical.positive shortestInside
  have fewest := shortest_fewest canonical positive inside
  rw [length_scientific shortestPos, length_scientific positive]
  rcases Nat.lt_or_ge m (2 ^ 52) with subnormal | normal
  · rw [canonical.power_tiny high subnormal positive inside,
      canonical.power_tiny high subnormal shortestPos shortestInside]
    split <;> split <;> omega
  · rcases canonical.aligned normal positive inside with same | ⟨single, next, more, -, -⟩
    · rw [same]
      split <;> split <;> omega
    · have := (length_integer_succ c.power).2
      rw [← next, single, if_pos rfl, if_neg (by omega)]
      omega

theorem scientific_bound (canonical : Canonical double m e) (high : e ≤ 971) :
    (shortest double m e).scientific.length ≤ 23 := by
  have inside := shortest_contains (f := double) (e := e) canonical.positive
  have positive := significand_pos canonical.positive inside
  have bounds := canonical.power_bounds high positive inside
  have digits := digitCount_shortest_le canonical
  have three : digitCount (shortest double m e).power.natAbs ≤ 3 :=
    digitCount_le (by decide) (by omega)
  rw [mostDigits] at digits
  rw [length_scientific positive, length_integer]
  split <;> split <;> omega

/-- No decimal of the interval fits into fewer places in front of the point and
behind it. -/
theorem positional_shortest (canonical : Canonical double m e) (high : e ≤ 971) {c : Decimal}
    (positive : 0 < c.significand) (inside : (Interval.around double m e).Contains c.value)
    {whole places : Nat} (some : 0 < whole) (exponent : c.exponent = -(places : Int))
    (fits : c.power < whole) :
    min (shortest double m e).positional.length (shortest double m e).scientific.length
      ≤ whole + if places = 0 then 0 else places + 1 := by
  have shortestInside := shortest_contains (f := double) (e := e) canonical.positive
  have shortestPos := significand_pos canonical.positive shortestInside
  have fewest := shortest_fewest canonical positive inside
  have count : c.power = digitCount c.significand - 1 - places := by
    rw [power, exponent]
    omega
  rcases Nat.lt_or_ge m (2 ^ 52) with subnormal | normal
  · -- a plain text of the number has hundreds of zeros
    have tiny := (power_spec positive).1.trans_lt (canonical.tiny subnormal inside)
    rw [zpow_lt_zpow_iff_right₀ (by norm_num)] at tiny
    have := scientific_bound canonical high
    have := digitCount_pos c.significand
    rw [if_neg (by omega)]
    omega
  · have shortestCount : (shortest double m e).power = (shortest double m e).exponent
        + digitCount (shortest double m e).significand - 1 := rfl
    have length := length_positional shortestPos
    rcases canonical.aligned normal positive inside with same | ⟨single, next, more, close, below⟩
    · refine (min_le_left _ _).trans ?_
      split at length <;> split <;> omega
    · rcases Nat.eq_zero_or_pos places with none | point
      · have whole : c.value = (c.significand : Nat) := by
          rw [value, exponent, none]
          simp
        rw [whole, ← Int.toNat_of_nonneg (a := (shortest double m e).power) (by omega),
          zpow_natCast] at close below
        have large := large_power below close
        have bounds := canonical.power_bounds high shortestPos shortestInside
        have three : digitCount (shortest double m e).power.natAbs ≤ 3 :=
          digitCount_le (by decide) (by omega)
        refine (min_le_right _ _).trans ?_
        rw [length_scientific shortestPos, length_integer, single, if_pos rfl, if_neg (by omega)]
        omega
      · refine (min_le_left _ _).trans ?_
        rw [if_neg (by omega)]
        split at length <;> omega

end Doubles

end GaugeExporter.Decimal
