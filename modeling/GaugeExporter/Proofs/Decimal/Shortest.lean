import GaugeExporter.Decimal.Shortest
import GaugeExporter.Proofs.Binary.Rounding
import GaugeExporter.Proofs.Decimal.Reading

/-!
# The shortest decimal rounds back

`Interval.Contains` is the interval of a search over the rationals.  The search
compares natural numbers only; `Grid.holds_iff` says that this decides
containment, so that what the search finds lies in the interval
(`shortest_contains`).  The non-trivial ingredient is `ofRatio_of_contains`: every
number in the interval rounds to the number it is around, where just below a
power of two the scale is that of the smaller neighbour.
-/

namespace GaugeExporter.Decimal

open Binary

/-! ## Intervals -/

/-- The number lies in the interval. -/
def Interval.Contains (interval : Interval) (q : ℚ) : Prop :=
  if interval.closed then
    interval.lower * 2 ^ interval.exponent ≤ q ∧ q ≤ interval.upper * 2 ^ interval.exponent
  else interval.lower * 2 ^ interval.exponent < q ∧ q < interval.upper * 2 ^ interval.exponent

/-- The common unit of a grid and an interval, by which points and counts become
natural numbers. -/
def Grid.commonUnit (interval : Interval) (exponent : Int) : ℚ :=
  2 ^ (-interval.exponent).toNat * 10 ^ (-exponent).toNat

theorem Grid.commonUnit_pos (interval : Interval) (exponent : Int) :
    0 < Grid.commonUnit interval exponent := by
  unfold commonUnit
  positivity

theorem Grid.point_mul_commonUnit (interval : Interval) (exponent : Int) (n : Nat) :
    value ⟨n, exponent⟩ * Grid.commonUnit interval exponent
      = (n * (Grid.over interval exponent).step : Nat) := by
  have ten := zpow_mul_toNat (by norm_num : (10 : ℚ) ≠ 0) exponent
  simp only [value, Grid.over, commonUnit, Nat.pow_eq]
  push_cast
  rw [← ten]
  ring

theorem Grid.count_mul_commonUnit (interval : Interval) (exponent : Int) (count : Nat) :
    (count : ℚ) * 2 ^ interval.exponent * Grid.commonUnit interval exponent
      = (count * (Grid.over interval exponent).unit : Nat) := by
  have two := two_zpow_eq interval.exponent
  simp only [Grid.over, commonUnit, Nat.pow_eq]
  push_cast
  rw [← two]
  ring

/-- Comparing grid points with the ends as natural numbers is exact. -/
theorem Grid.holds_iff (interval : Interval) (exponent : Int) (n : Nat) :
    (Grid.over interval exponent).holds interval n = true ↔
      interval.Contains (value ⟨n, exponent⟩) := by
  have unit := commonUnit_pos interval exponent
  rw [Grid.holds, Interval.Contains]
  split
  · rw [decide_eq_true_eq, ← mul_le_mul_iff_of_pos_right unit,
      ← mul_le_mul_iff_of_pos_right (b := value _) unit, count_mul_commonUnit,
      count_mul_commonUnit, point_mul_commonUnit]
    exact_mod_cast Iff.rfl
  · rw [decide_eq_true_eq, ← mul_lt_mul_iff_of_pos_right unit,
      ← mul_lt_mul_iff_of_pos_right (b := value _) unit, count_mul_commonUnit,
      count_mul_commonUnit, point_mul_commonUnit]
    exact_mod_cast Iff.rfl

/-- The last point of a grid that is not above the centre of an interval. -/
def Grid.below (interval : Interval) (exponent : Int) : Nat :=
  interval.centre * (Grid.over interval exponent).unit / (Grid.over interval exponent).step

/-- The better neighbour is one of the two, and lies in the interval. -/
theorem Grid.best?_eq_some {interval : Interval} {exponent : Int} {d : Decimal}
    (found : (Grid.over interval exponent).best? interval = some d) :
    ∃ n, (n = Grid.below interval exponent ∨ n = Grid.below interval exponent + 1) ∧
      d = ⟨n, exponent⟩ ∧ interval.Contains d.value := by
  unfold Grid.best? at found
  simp only at found
  split at found
  · cases found
  next below _ =>
    cases found
    exact ⟨_, .inl rfl, rfl, (Grid.holds_iff interval exponent _).mp below⟩
  next _ above =>
    cases found
    exact ⟨_, .inr rfl, rfl, (Grid.holds_iff interval exponent _).mp above⟩
  next below above =>
    split at found
    · cases found
      exact ⟨_, .inl rfl, rfl, (Grid.holds_iff interval exponent _).mp below⟩
    · cases found
      exact ⟨_, .inr rfl, rfl, (Grid.holds_iff interval exponent _).mp above⟩

/-- There is a better neighbour if one of the two lies in the interval. -/
theorem Grid.best?_isSome {interval : Interval} {exponent : Int} {n : Nat}
    (neighbour : n = Grid.below interval exponent ∨ n = Grid.below interval exponent + 1)
    (inside : interval.Contains (value ⟨n, exponent⟩)) :
    ((Grid.over interval exponent).best? interval).isSome = true := by
  have held := (Grid.holds_iff interval exponent n).mpr inside
  unfold Grid.best?
  simp only
  split
  next notBelow notAbove =>
    rcases neighbour with rfl | rfl
    · exact absurd (held.symm.trans notBelow) (by decide)
    · exact absurd (held.symm.trans notAbove) (by decide)
  · rfl
  · rfl
  · split <;> rfl

/-! ## Around a number -/

section Around

variable {f : Format} {m : Nat} {e : Int} {q : ℚ}

/-- The bounds of an interval in steps of the number it is around. -/
structure Near (f : Format) (m : Nat) (e : Int) (q : ℚ) : Prop where
  low : (m : ℚ) - 1 / 2 ≤ q / 2 ^ e
  high : q / 2 ^ e ≤ m + 1 / 2
  tie : (m : ℚ) - 1 / 2 = q / 2 ^ e ∨ q / 2 ^ e = m + 1 / 2 → m % 2 = 0
  -- Below a power of two the steps are half as wide.
  power : m = 2 ^ f.precision → f.minExponent < e → (m : ℚ) - 1 / 4 ≤ q / 2 ^ e

theorem ends_around (positive : 0 < m) :
    ((Interval.around f m e).lower : ℚ) * 2 ^ (e - 2)
        = ((m : ℚ) - if m = 2 ^ f.precision ∧ f.minExponent < e then 1 / 4 else 1 / 2) * 2 ^ e ∧
      ((Interval.around f m e).upper : ℚ) * 2 ^ (e - 2) = ((m : ℚ) + 1 / 2) * 2 ^ e := by
  have quarter : (2 : ℚ) ^ (e - 2) = 2 ^ e / 4 := by
    rw [zpow_sub₀ (by norm_num)]
    norm_num
  rw [quarter, Interval.around, Nat.pow_eq]
  constructor
  · split
    · rw [Nat.cast_sub (by omega)]
      push_cast
      ring
    · rw [Nat.cast_sub (by omega)]
      push_cast
      ring
  · push_cast
    ring

/-- What an interval contains, in steps of the number it is around. -/
theorem contains_around (positive : 0 < m) :
    (Interval.around f m e).Contains q ↔
      if m % 2 = 0 then
        (m : ℚ) - (if m = 2 ^ f.precision ∧ f.minExponent < e then 1 / 4 else 1 / 2) ≤ q / 2 ^ e ∧
          q / 2 ^ e ≤ m + 1 / 2
      else
        (m : ℚ) - (if m = 2 ^ f.precision ∧ f.minExponent < e then 1 / 4 else 1 / 2) < q / 2 ^ e ∧
          q / 2 ^ e < m + 1 / 2 := by
  have power := two_zpow_pos e
  obtain ⟨lower, upper⟩ := ends_around (f := f) (e := e) positive
  have shape : (Interval.around f m e).exponent = e - 2 := rfl
  have parity : (Interval.around f m e).closed = decide (m % 2 = 0) := rfl
  rw [Interval.Contains, shape, lower, upper, parity, ← le_div_iff₀ power, ← div_le_iff₀ power,
    ← lt_div_iff₀ power, ← div_lt_iff₀ power]
  simp only [decide_eq_true_eq]

theorem near_of_contains (positive : 0 < m) (contains : (Interval.around f m e).Contains q) :
    Near f m e q := by
  have reach : (if m = 2 ^ f.precision ∧ f.minExponent < e then 1 / 4 else 1 / 2)
      ≤ (1 : ℚ) / 2 := by
    split <;> norm_num
  rw [contains_around positive] at contains
  by_cases even : m % 2 = 0
  · rw [if_pos even] at contains
    obtain ⟨low, high⟩ := contains
    refine ⟨by linarith, high, fun _ => even, fun isPower above => ?_⟩
    rwa [if_pos ⟨isPower, above⟩] at low
  · rw [if_neg even] at contains
    obtain ⟨low, high⟩ := contains
    refine ⟨by linarith, high.le, fun touches => ?_, fun isPower above => ?_⟩
    · -- an odd number's interval is open
      cases touches with
      | inl atLow => linarith
      | inr atHigh => linarith
    · rw [if_pos ⟨isPower, above⟩] at low
      exact low.le

theorem around_contains_centre (positive : 0 < m) :
    (Interval.around f m e).Contains (m * 2 ^ e) := by
  have reach : (0 : ℚ) < if m = 2 ^ f.precision ∧ f.minExponent < e then 1 / 4 else 1 / 2 := by
    split <;> norm_num
  rw [contains_around positive, mul_div_cancel_right₀ _ (two_zpow_pos e).ne']
  split
  · constructor <;> linarith
  · constructor <;> linarith

theorem value_exact (m : Nat) (e : Int) :
    value ⟨m * Nat.pow 5 (-e).toNat * Nat.pow 2 e.toNat, min e 0⟩ = m * 2 ^ e := by
  have two := two_zpow_eq e
  have ten := zpow_mul_toNat (by norm_num : (10 : ℚ) ≠ 0) (min e 0)
  have noWhole : (min e 0).toNat = 0 := by omega
  have places : (-min e 0).toNat = (-e).toNat := by omega
  have split : (10 : ℚ) ^ (-e).toNat = 2 ^ (-e).toNat * 5 ^ (-e).toNat := by
    rw [← mul_pow]
    norm_num
  have positive : (10 : ℚ) ^ (-e).toNat ≠ 0 := by positivity
  rw [noWhole, places, pow_zero] at ten
  refine mul_right_cancel₀ positive ?_
  rw [value, mul_assoc, ten, mul_one, split]
  simp only [Nat.pow_eq]
  push_cast
  rw [← two]
  ring

theorem shortest_contains (positive : 0 < m) :
    (Interval.around f m e).Contains (shortest f m e).value := by
  unfold shortest
  rw [if_neg positive.ne']
  simp only
  split
  next d found =>
    obtain ⟨further, _, hit⟩ := List.exists_of_findSome?_eq_some found
    rw [value_strip]
    obtain ⟨_, _, _, contains⟩ := Grid.best?_eq_some hit
    exact contains
  next =>
    rw [value_exact]
    exact around_contains_centre positive

/-! ## Rounding back -/

/-- A significand and an exponent as the format stores them. -/
structure Canonical (f : Format) (m : Nat) (e : Int) : Prop where
  floor : f.minExponent ≤ e
  positive : 0 < m
  bound : m < 2 ^ (f.precision + 1)
  leading : f.minExponent < e → 2 ^ f.precision ≤ m

theorem Near.pos (near : Near f m e q) (positive : 0 < m) : 0 < q := by
  have power := two_zpow_pos e
  have one : (1 : ℚ) ≤ m := by exact_mod_cast positive
  have low := near.low
  by_contra negative
  have : q / 2 ^ e ≤ 0 := div_nonpos_of_nonpos_of_nonneg (not_lt.mp negative) power.le
  linarith

/-- Two steps up from the scale below is one step up from the power of two. -/
theorem magnitude_carry (above : f.minExponent < e) :
    f.magnitude (2 ^ (f.precision + 1)) (e - 1) = f.magnitude (2 ^ f.precision) e := by
  obtain ⟨k, steps⟩ : ∃ k : Nat, e - f.minExponent = k + 1 :=
    ⟨(e - f.minExponent - 1).toNat, by omega⟩
  have below : (e - 1 - f.minExponent).toNat = k := by omega
  have here : (e - f.minExponent).toNat = k + 1 := by omega
  rw [Format.magnitude, Format.magnitude, below, here, Nat.pow_eq]
  congr 1
  ring

variable {N D : Nat}

theorem ratioLog_le (canonical : Canonical f m e) (near : Near f m e (N / D)) (hN : 0 < N)
    (hD : 0 < D) : ratioLog N D ≤ f.precision + e := by
  have room : (m : ℚ) + 1 ≤ 2 ^ (f.precision + 1) := by exact_mod_cast canonical.bound
  have high := near.high
  have small : (N : ℚ) / D < 2 ^ ((f.precision : Int) + 1 + e) := by
    have power : (2 : ℚ) ^ ((f.precision : Int) + 1) = 2 ^ (f.precision + 1) := by
      exact_mod_cast rfl
    rw [zpow_add₀ (by norm_num), ← div_lt_iff₀ (two_zpow_pos e), power]
    linarith
  have reached := (ratioLog_spec hN hD).1.trans_lt small
  have := (zpow_lt_zpow_iff_right₀ (by norm_num : (1 : ℚ) < 2)).mp reached
  omega

/-- Only around a power of two are there numbers with a lower leading bit. -/
theorem Near.eq_power (canonical : Canonical f m e) (near : Near f m e q)
    (above : f.minExponent < e) (less : q / 2 ^ e < 2 ^ f.precision) : m = 2 ^ f.precision := by
  have low := near.low
  have close : (m : ℚ) < (2 ^ f.precision + 1 : Nat) := by
    push_cast
    linarith
  have close : m < 2 ^ f.precision + 1 := by exact_mod_cast close
  have := canonical.leading above
  omega

/-- Just below a power of two the leading bit is one place lower. -/
theorem ratioLog_below (near : Near f (2 ^ f.precision) e (N / D)) (above : f.minExponent < e)
    (less : (N : ℚ) / D / 2 ^ e < 2 ^ f.precision) (hN : 0 < N) (hD : 0 < D) :
    ratioLog N D = f.precision + e - 1 := by
  obtain ⟨reached, below⟩ := ratioLog_spec hN hD
  have two : (2 : ℚ) ≠ 0 := by norm_num
  have power := two_zpow_pos e
  have one : (1 : ℚ) ≤ 2 ^ f.precision := one_le_pow₀ (by norm_num)
  have quarter := near.power rfl above
  push_cast at quarter
  have lower : (2 : ℚ) ^ ((f.precision : Int) + e - 1) ≤ N / D := by
    have half : (2 : ℚ) ^ ((f.precision : Int) + e - 1) = 2 ^ f.precision / 2 * 2 ^ e := by
      rw [zpow_sub₀ two, zpow_add₀ two, zpow_one, zpow_natCast]
      ring
    rw [half, ← le_div_iff₀ power]
    linarith
  have upper : (N : ℚ) / D < 2 ^ ((f.precision : Int) + e - 1 + 1) := by
    rw [sub_add_cancel, zpow_add₀ two, ← div_lt_iff₀ power, zpow_natCast]
    exact less
  exact log_unique reached below lower upper

/-- Such a number rounds up to the power of two, on the finer scale below it. -/
theorem ofRatio_below (near : Near f (2 ^ f.precision) e (N / D)) (above : f.minExponent < e)
    (less : (N : ℚ) / D / 2 ^ e < 2 ^ f.precision) (hN : 0 < N) (hD : 0 < D) :
    f.ofRatio N D = f.magnitude (2 ^ f.precision) e := by
  have quarter := near.power rfl above
  push_cast at quarter
  have scale : max f.minExponent (ratioLog N D - f.precision) = e - 1 := by
    have := ratioLog_below near above less hN hD
    omega
  have doubled : (N : ℚ) / D / 2 ^ (e - 1) = 2 * (N / D / 2 ^ e) := by
    rw [zpow_sub₀ (by norm_num), zpow_one]
    field_simp
  have wide : ((2 ^ (f.precision + 1) : Nat) : ℚ) = 2 * 2 ^ f.precision := by
    push_cast
    ring
  rw [← magnitude_carry above]
  refine Format.ofRatio_of_near hN hD scale ?_ ?_ ?_
  · rw [wide, doubled]
    linarith
  · rw [wide, doubled]
    linarith
  · intro _
    rw [pow_succ]
    omega

/-- Every quotient in the interval rounds to the number that the interval is
around. -/
theorem ofRatio_of_contains (canonical : Canonical f m e) (hN : 0 < N) (hD : 0 < D)
    (contains : (Interval.around f m e).Contains (N / D)) : f.ofRatio N D = f.magnitude m e := by
  have near := near_of_contains canonical.positive contains
  have floor := canonical.floor
  by_cases lowest : f.minExponent = e
  · have atMost := ratioLog_le canonical near hN hD
    exact Format.ofRatio_of_near hN hD (by omega) near.low near.high near.tie
  · have above : f.minExponent < e := by omega
    by_cases less : (N : ℚ) / D / 2 ^ e < 2 ^ f.precision
    · obtain rfl := near.eq_power canonical above less
      exact ofRatio_below near above less hN hD
    · have reached : (2 : ℚ) ^ ((f.precision : Int) + e) ≤ N / D := by
        rw [zpow_add₀ (by norm_num), ← le_div_iff₀ (two_zpow_pos e), zpow_natCast]
        exact not_lt.mp less
      have atLeast := (zpow_lt_zpow_iff_right₀ (by norm_num : (1 : ℚ) < 2)).mp
        (reached.trans_lt (ratioLog_spec hN hD).2)
      have atMost := ratioLog_le canonical near hN hD
      exact Format.ofRatio_of_near hN hD (by omega) near.low near.high near.tie

end Around

end GaugeExporter.Decimal
