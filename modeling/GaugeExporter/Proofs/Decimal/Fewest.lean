import GaugeExporter.Proofs.Decimal.Nearest

/-!
# The shortest decimal has the fewest digits

The search tries the grids from the coarsest one that has a point below the
number.  `Grid.best?_isSome` is the fact it rests on: if any point of a grid
lies in the interval, one of the two neighbours of the number does.  A decimal
of few digits in the interval would therefore have been found on its own grid,
or the power of ten between it and the number on the first one
(`shortest_fewest`).  On the grid of seventeen digits the search succeeds at the
latest, because its points lie closer together than the ends of the interval
(`seventeen_digits`).
-/

namespace GaugeExporter.Decimal

open Binary

/-! ## Intervals are convex -/

theorem Interval.Contains.between {interval : Interval} {a b c : ℚ} (low : interval.Contains a)
    (high : interval.Contains c) (ab : a ≤ b) (bc : b ≤ c) : interval.Contains b := by
  unfold Contains at *
  split
  next closed =>
    rw [if_pos closed] at low high
    exact ⟨low.1.trans ab, bc.trans high.2⟩
  next opened =>
    rw [if_neg opened] at low high
    exact ⟨low.1.trans_le ab, bc.trans_lt high.2⟩

/-! ## Powers of ten -/

theorem ten_zpow_pos (e : Int) : (0 : ℚ) < 10 ^ e := zpow_pos (by norm_num) e

theorem digitCount_pos (n : Nat) : 0 < digitCount n := by
  rw [digitCount]
  split <;> omega

theorem digitCount_one : digitCount 1 = 1 := by rw [digitCount, if_pos (by decide)]

theorem value_one (e : Int) : value ⟨1, e⟩ = 10 ^ e := by simp [value]

theorem value_ten (e : Int) : value ⟨10, e⟩ = 10 ^ (e + 1) := by
  rw [value, zpow_add_one₀ (by norm_num), mul_comm]
  norm_num

/-- The power of ten of the first digit. -/
def power (d : Decimal) : Int := d.exponent + digitCount d.significand - 1

theorem power_spec {d : Decimal} (positive : 0 < d.significand) :
    (10 : ℚ) ^ d.power ≤ d.value ∧ d.value < 10 ^ (d.power + 1) := by
  obtain ⟨low, high⟩ := value_bounds positive
  rw [power, sub_add_cancel, zpow_sub_one₀ (by norm_num)]
  exact ⟨by linarith, high⟩

/-- The digits of a natural number count the powers of ten that it reaches. -/
theorem digitCount_powers {n : Nat} (positive : 0 < n) :
    ∃ k, digitCount n = k + 1 ∧ 10 ^ k ≤ n ∧ n < 10 ^ (k + 1) := by
  obtain ⟨low, high⟩ := digitCount_bounds positive
  obtain ⟨k, count⟩ := Nat.exists_eq_succ_of_ne_zero (digitCount_pos n).ne'
  rw [count, pow_succ] at low
  refine ⟨k, count, by omega, ?_⟩
  rwa [count] at high

/-- The largest power of ten that a positive number reaches. -/
theorem log10_spec {m : Nat} (positive : 0 < m) (e : Int) :
    (10 : ℚ) ^ log10 m e ≤ m * 2 ^ e ∧ (m : ℚ) * 2 ^ e < 10 ^ (log10 m e + 1) := by
  have scale := two_zpow_eq e
  have someDenominator : 0 < 2 ^ (-e).toNat := by positivity
  unfold log10
  simp only [Nat.pow_eq]
  split
  next whole =>
    have number : (m : ℚ) * 2 ^ e = (m * 2 ^ e.toNat : Nat) := by
      rw [show (-e).toNat = 0 by omega, pow_zero, mul_one] at scale
      push_cast
      rw [scale]
    obtain ⟨k, count, low, high⟩ :=
      digitCount_powers (n := m * 2 ^ e.toNat) (Nat.mul_pos positive (by positivity))
    rw [number, count, Nat.cast_add_one, Int.add_sub_cancel]
    exact ⟨by exact_mod_cast low, by exact_mod_cast high⟩
  next fractional =>
    have number : (m : ℚ) * 2 ^ e = m / (2 ^ (-e).toNat : Nat) := by
      rw [show e.toNat = 0 by omega, pow_zero] at scale
      push_cast
      rw [eq_div_iff (by positivity), mul_assoc, scale, mul_one]
    rw [number]
    generalize 2 ^ (-e).toNat = D at someDenominator
    have posD : (0 : ℚ) < D := by exact_mod_cast someDenominator
    split
    next large =>
      obtain ⟨k, count, low, high⟩ := digitCount_powers (Nat.div_pos large someDenominator)
      rw [count, Nat.cast_add_one, Int.add_sub_cancel, le_div_iff₀ posD, div_lt_iff₀ posD]
      have reached : 10 ^ k * D ≤ m := (Nat.le_div_iff_mul_le someDenominator).mp low
      have below : m < 10 ^ (k + 1) * D := (Nat.div_lt_iff_lt_mul someDenominator).mp high
      exact ⟨by exact_mod_cast reached, by exact_mod_cast below⟩
    next small =>
      obtain ⟨k, count, low, high⟩ :=
        digitCount_powers (Nat.div_pos (show m ≤ D - 1 by omega) positive)
      have reached : 10 ^ k * m < D := by
        have := (Nat.le_div_iff_mul_le positive).mp low
        omega
      have below : D ≤ 10 ^ (k + 1) * m := by
        have := (Nat.div_lt_iff_lt_mul positive).mp high
        omega
      have reached : (10 : ℚ) ^ k * m < D := by exact_mod_cast reached
      have below : (D : ℚ) ≤ 10 ^ (k + 1) * m := by exact_mod_cast below
      have next : -((k + 1 : Nat) : Int) + 1 = -(k : Int) := by omega
      rw [count, next, le_div_iff₀ posD, div_lt_iff₀ posD, zpow_neg, zpow_neg, zpow_natCast,
        zpow_natCast]
      constructor
      · rwa [inv_mul_le_iff₀ (by positivity)]
      · rwa [lt_inv_mul_iff₀ (by positivity)]

/-! ## Grids -/

section Grids

variable {f : Format} {m n : Nat} {e g : Int}

/-- The centre of an interval stands between its neighbours on a grid. -/
theorem Grid.neighbours (f : Format) (m : Nat) (e g : Int) :
    value ⟨Grid.below (Interval.around f m e) g, g⟩ ≤ m * 2 ^ e ∧
      m * 2 ^ e < value ⟨Grid.below (Interval.around f m e) g + 1, g⟩ := by
  have unit := Grid.commonUnit_pos (Interval.around f m e) g
  have centre : (m : ℚ) * 2 ^ e
      = ((Interval.around f m e).centre : Nat) * 2 ^ (Interval.around f m e).exponent := by
    simp only [Interval.around]
    rw [zpow_sub₀ (by norm_num)]
    push_cast
    ring
  have step : 0 < (Grid.over (Interval.around f m e) g).step := by
    simp only [Grid.over, Nat.pow_eq]
    positivity
  rw [← mul_le_mul_iff_of_pos_right unit, ← mul_lt_mul_iff_of_pos_right unit, centre,
    Grid.point_mul_commonUnit, Grid.point_mul_commonUnit, Grid.count_mul_commonUnit]
  exact ⟨by exact_mod_cast Nat.div_mul_le_self _ _,
    by exact_mod_cast Nat.lt_mul_of_div_lt (Nat.lt_succ_self _) step⟩

theorem value_le_value (less : m ≤ n) (e : Int) : value ⟨m, e⟩ ≤ value ⟨n, e⟩ :=
  mul_le_mul_of_nonneg_right (by exact_mod_cast less) (ten_zpow_pos e).le

/-- If any point of a grid lies in the interval, so does one of the neighbours of
the centre. -/
theorem Grid.best?_of_contains (positive : 0 < m)
    (inside : (Interval.around f m e).Contains (value ⟨n, g⟩)) :
    ((Grid.over (Interval.around f m e) g).best? (Interval.around f m e)).isSome = true := by
  obtain ⟨low, high⟩ := Grid.neighbours f m e g
  have centre := around_contains_centre (f := f) (e := e) positive
  rcases Nat.lt_or_ge (Grid.below (Interval.around f m e) g) n with above | below
  · exact best?_isSome (.inr rfl) (centre.between inside high.le (value_le_value above g))
  · exact best?_isSome (.inl rfl) (inside.between centre (value_le_value below g) low)

theorem Grid.below_lt (positive : 0 < m) (e : Int) (j : Nat) :
    Grid.below (Interval.around f m e) (log10 m e - j) < 10 ^ (j + 1) := by
  have low := (Grid.neighbours f m e (log10 m e - j)).1.trans_lt (log10_spec positive e).2
  have split : (10 : ℚ) ^ (log10 m e + 1) = 10 ^ (j + 1) * 10 ^ (log10 m e - j) := by
    rw [← zpow_natCast, ← zpow_add₀ (by norm_num)]
    congr 1
    push_cast
    ring
  rw [value, split, mul_lt_mul_iff_of_pos_right (ten_zpow_pos _)] at low
  exact_mod_cast low

/-- What lies strictly within half a step of a number lies in its interval. -/
theorem contains_of_inside {q : ℚ} (positive : 0 < m) (low : m - f.stepDown m e / 2 < q / 2 ^ e)
    (high : q / 2 ^ e < m + 1 / 2) : (Interval.around f m e).Contains q := by
  refine (contains_iff_steps positive).mpr ⟨⟨low.le, high.le⟩, ?_⟩
  rintro (atLow | atHigh)
  · exact absurd atLow low.ne'
  · exact absurd atHigh high.ne

/-- A grid has a point in the interval of a double if its points are closer
together than the number of digits of the largest significand allows. -/
theorem seventeen_digits (canonical : Canonical double m e) :
    ((Grid.over (Interval.around double m e) (log10 m e - 16)).best?
      (Interval.around double m e)).isSome = true := by
  obtain ⟨low, high⟩ := Grid.neighbours double m e (log10 m e - 16)
  have positive := canonical.positive
  have power := two_zpow_pos e
  have bound : (m : ℚ) + 1 ≤ 2 ^ 53 := by exact_mod_cast canonical.bound
  have down := double.stepDown_bounds m e
  have step : (10 : ℚ) ^ (log10 m e - 16) / 2 ^ e * 10 ^ 16 ≤ m := by
    have places : (10 : ℚ) ^ (log10 m e - 16) * 10 ^ 16 = 10 ^ log10 m e := by
      rw [← zpow_natCast, ← zpow_add₀ (by norm_num)]
      congr 1
      omega
    rw [div_mul_eq_mul_div, div_le_iff₀ power, places]
    exact (log10_spec positive e).1
  have close : (10 : ℚ) ^ (log10 m e - 16) / 2 ^ e < double.stepDown m e / 2 + 1 / 2 := by
    generalize (10 : ℚ) ^ (log10 m e - 16) / 2 ^ e = s at step
    unfold Format.stepDown
    split
    next isPower =>
      have power : (m : ℚ) = 2 ^ 52 := by exact_mod_cast isPower.1
      linarith
    next => linarith
  have next (b : Nat) : value ⟨b + 1, log10 m e - 16⟩ / 2 ^ e
      = value ⟨b, log10 m e - 16⟩ / 2 ^ e + 10 ^ (log10 m e - 16) / 2 ^ e := by
    rw [← add_div, value, value]
    push_cast
    ring
  rw [← div_le_iff₀ power] at low
  rw [← lt_div_iff₀ power, next] at high
  generalize below : Grid.below (Interval.around double m e) (log10 m e - 16) = b at low high
  by_cases near : m - double.stepDown m e / 2 < value ⟨b, log10 m e - 16⟩ / 2 ^ e
  · exact Grid.best?_isSome (.inl below.symm) (contains_of_inside positive near (by linarith))
  · refine Grid.best?_isSome (.inr (by rw [below])) (contains_of_inside positive ?_ ?_)
    · rw [next]
      linarith
    · rw [next]
      linarith

end Grids

/-! ## The search -/

theorem range_split {count j : Nat} {front back : List Nat}
    (split : List.range count = front ++ j :: back) : front = List.range j := by
  have inside : front.length < count := by
    have := congrArg List.length split
    simp at this
    omega
  have here : (List.range count)[front.length]? = some j := by rw [split]; simp
  rw [List.getElem?_range inside] at here
  cases here
  have taken := congrArg (List.take front.length) split
  rw [List.take_left, List.take_range, Nat.min_eq_left inside.le] at taken
  exact taken.symm

section Search

variable {m : Nat} {e : Int}

/-- The search stops at the first grid on which it succeeds, and on that grid
the decimal has no more digits than grids were tried. -/
theorem shortest_found (canonical : Canonical double m e) :
    ∃ (j : Nat) (d : Decimal), j < mostDigits ∧ shortest double m e = d.strip ∧
      d.significand ≤ 10 ^ (j + 1) ∧
      ∀ i < j, (Grid.over (Interval.around double m e) (log10 m e - i)).best?
        (Interval.around double m e) = none := by
  have positive := canonical.positive
  rw [shortest, if_neg positive.ne']
  simp only
  split
  next d found =>
    obtain ⟨front, j, back, split, hit, missed⟩ := List.findSome?_eq_some_iff.mp found
    have first := range_split split
    have inside : j ∈ List.range mostDigits := split ▸ by simp
    obtain ⟨n, neighbour, rfl, -⟩ := Grid.best?_eq_some hit
    refine ⟨j, _, List.mem_range.mp inside, rfl, ?_, fun i less => ?_⟩
    · have below := Grid.below_lt (f := double) positive e j
      rcases neighbour with rfl | rfl
      · exact below.le
      · exact below
    · exact missed i (first ▸ List.mem_range.mpr less)
  next missed =>
    have hit := seventeen_digits canonical
    have none := List.findSome?_eq_none_iff.mp missed 16 (by decide)
    rw [Nat.cast_ofNat] at none
    rw [none] at hit
    cases hit

/-- Trailing zeros do not count. -/
theorem digitCount_strip_le {d : Decimal} {k : Nat} (positive : 0 < k)
    (bound : d.significand ≤ 10 ^ k) : digitCount d.strip.significand ≤ k := by
  induction d using strip.induct with
  | case1 d done =>
    rw [strip, if_pos done]
    refine digitCount_le positive (lt_of_le_of_ne bound fun power => ?_)
    obtain ⟨j, rfl⟩ := Nat.exists_eq_succ_of_ne_zero positive.ne'
    rw [power, Nat.pow_succ] at done
    rcases done with zero | odd
    · exact absurd zero (by positivity)
    · exact odd (Nat.mul_mod_left _ _)
  | case2 d more ih =>
    rw [strip, if_neg more]
    exact ih ((Nat.div_le_self _ _).trans bound)

/-- No decimal in the interval of a double has fewer digits than its shortest
decimal. -/
theorem shortest_fewest (canonical : Canonical double m e) {c : Decimal}
    (positive : 0 < c.significand) (inside : (Interval.around double m e).Contains c.value) :
    digitCount (shortest double m e).significand ≤ digitCount c.significand := by
  obtain ⟨j, d, -, found, bound, missed⟩ := shortest_found canonical
  have digits : digitCount (shortest double m e).significand ≤ j + 1 :=
    found ▸ digitCount_strip_le j.succ_pos bound
  by_contra fewer
  obtain ⟨i, count⟩ := Nat.exists_eq_succ_of_ne_zero (digitCount_pos c.significand).ne'
  have tried : i < j := by omega
  have noPoint (k n : Nat) (less : k < j) :
      ¬ (Interval.around double m e).Contains (value ⟨n, log10 m e - k⟩) := by
    intro point
    have hit := Grid.best?_of_contains canonical.positive point
    rw [missed k less] at hit
    cases hit
  have centre := around_contains_centre (f := double) (e := e) canonical.positive
  obtain ⟨low, high⟩ := log10_spec canonical.positive e
  obtain ⟨reached, below⟩ := power_spec positive
  rcases lt_trichotomy c.power (log10 m e) with less | same | more
  · -- the power of ten between the decimal and the number is a point of the first grid
    refine noPoint 0 1 (by omega) ?_
    rw [Nat.cast_zero, sub_zero, value_one]
    exact inside.between centre
      (below.le.trans (zpow_le_zpow_right₀ (by norm_num) (by omega))) low
  · refine noPoint i c.significand tried ?_
    have exponent : log10 m e - i = c.exponent := by
      rw [power, count] at same
      omega
    rwa [exponent]
  · refine noPoint 0 10 (by omega) ?_
    rw [Nat.cast_zero, sub_zero, value_ten]
    exact centre.between inside high.le
      ((zpow_le_zpow_right₀ (by norm_num) (by omega)).trans reached)

theorem digitCount_shortest_le (canonical : Canonical double m e) :
    digitCount (shortest double m e).significand ≤ mostDigits := by
  obtain ⟨j, d, tried, found, bound, -⟩ := shortest_found canonical
  rw [found]
  exact (digitCount_strip_le j.succ_pos bound).trans tried

end Search

end GaugeExporter.Decimal
