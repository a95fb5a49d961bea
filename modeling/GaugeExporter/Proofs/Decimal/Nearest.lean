import Mathlib.Algebra.Order.Group.Unbundled.Abs
import GaugeExporter.Proofs.Decimal.RoundTrip

/-!
# The nearest double

`Nearest` says what rounding is, without saying how it is done: of all numbers
that the significands of a format can hold the result is the closest one, and
where two are equally close the one with the even significand.  Exponents have
no upper bound there, so that a number beyond the largest double by half a step
or more has no nearest double.

The non-trivial ingredient is `apart`: a number that a format can hold is the
one in question, or at least a step away from it, where the step down from a
power of two is half as wide.  From it `nearest_iff` makes the interval of the
shortest digits the set of all numbers that round to a double, and
`toDouble_of_nearest` makes the reading of numerals correct for every number
that has a nearest double.
-/

namespace GaugeExporter.Binary

/-! ## What rounding is -/

/-- A significand of the format holds the number, at some exponent. -/
def Format.Holds (f : Format) (v : ℚ) : Prop :=
  ∃ m e : ℤ, |m| < 2 ^ (f.precision + 1) ∧ f.minExponent ≤ e ∧ v = m * 2 ^ e

/-- A magnitude with a sign. -/
def signed (negative : Bool) (q : ℚ) : ℚ := if negative then -q else q

namespace Double

/-- The number of a finite double. -/
def value (x : Double) : ℚ :=
  match x.number with
  | .finite negative m e => signed negative (m * 2 ^ e)
  | _ => 0

/-- A finite double with a minus sign, zero included. -/
def isNegative (x : Double) : Bool :=
  match x.number with
  | .finite negative _ _ => negative
  | _ => false

/-- A finite double with an even significand. -/
def isEven (x : Double) : Bool :=
  match x.number with
  | .finite _ m _ => decide (m % 2 = 0)
  | _ => false

/-- A double that a number rounds to. -/
structure Nearest (x : Double) (q : ℚ) : Prop where
  finite : x.isFinite = true
  closest : ∀ v, double.Holds v → |x.value - q| ≤ |v - q|
  even : ∀ v, double.Holds v → v ≠ x.value → |v - q| = |x.value - q| → x.isEven = true

end Double

/-! ## Signs -/

theorem Format.Holds.neg {f : Format} {v : ℚ} (holds : f.Holds v) : f.Holds (-v) := by
  obtain ⟨m, e, bound, floor, rfl⟩ := holds
  refine ⟨-m, e, by rwa [abs_neg], floor, ?_⟩
  push_cast
  ring

theorem Format.Holds.signed {f : Format} {v : ℚ} (holds : f.Holds v) (negative : Bool) :
    f.Holds (signed negative v) := by
  cases negative with
  | false => exact holds
  | true => exact holds.neg

theorem signed_signed (negative : Bool) (q : ℚ) : signed negative (signed negative q) = q := by
  cases negative <;> simp [signed]

theorem signed_inj {negative : Bool} {q r : ℚ} : signed negative q = signed negative r ↔ q = r := by
  cases negative <;> simp [signed]

theorem abs_signed_sub (negative : Bool) (q r : ℚ) :
    |signed negative q - signed negative r| = |q - r| := by
  cases negative with
  | false => rfl
  | true =>
    rw [signed, signed, if_pos rfl, if_pos rfl, neg_sub_neg, abs_sub_comm]

/-! ## Distances -/

/-- The lower one of two numbers is closer to what lies below their middle. -/
theorem lower_closer {a b t : ℚ} (less : a < b) : |a - t| ≤ |b - t| ↔ 2 * t ≤ a + b := by
  rw [← sq_le_sq, ← sub_nonneg, show (b - t) ^ 2 - (a - t) ^ 2 = (b - a) * (a + b - 2 * t) by ring,
    mul_nonneg_iff_of_pos_left (by linarith), sub_nonneg]

theorem upper_closer {a b t : ℚ} (less : a < b) : |b - t| ≤ |a - t| ↔ a + b ≤ 2 * t := by
  rw [← sq_le_sq, ← sub_nonneg,
    show (a - t) ^ 2 - (b - t) ^ 2 = (b - a) * (2 * t - (a + b)) by ring,
    mul_nonneg_iff_of_pos_left (by linarith), sub_nonneg]

/-- Where `m - s` and `m + 1` are the neighbours of `m`, the numbers closest to it
reach half way to them. -/
theorem closest_iff {Held : ℚ → Prop} {m s t : ℚ} (positive : 0 < s)
    (apart : ∀ w, Held w → w ≤ m - s ∨ w = m ∨ m + 1 ≤ w) (below : Held (m - s))
    (above : Held (m + 1)) :
    (∀ w, Held w → |m - t| ≤ |w - t|) ↔ m - s / 2 ≤ t ∧ t ≤ m + 1 / 2 := by
  constructor
  · intro closest
    have low := (upper_closer (by linarith)).mp (closest _ below)
    have high := (lower_closer (by linarith)).mp (closest _ above)
    constructor <;> linarith
  · rintro ⟨low, high⟩ w held
    rcases apart w held with less | rfl | more
    · exact (upper_closer (by linarith)).mpr (by linarith)
    · exact le_refl _
    · exact (lower_closer (by linarith)).mpr (by linarith)

/-- Another number is equally close only at the end points. -/
theorem tie_iff {Held : ℚ → Prop} {m s t : ℚ} (positive : 0 < s)
    (apart : ∀ w, Held w → w ≤ m - s ∨ w = m ∨ m + 1 ≤ w) (below : Held (m - s))
    (above : Held (m + 1)) (near : m - s / 2 ≤ t ∧ t ≤ m + 1 / 2) :
    (∃ w, Held w ∧ w ≠ m ∧ |w - t| = |m - t|) ↔ t = m - s / 2 ∨ t = m + 1 / 2 := by
  obtain ⟨low, high⟩ := near
  constructor
  · rintro ⟨w, held, other, equal⟩
    rcases apart w held with less | rfl | more
    · have := (lower_closer (by linarith)).mp equal.le
      exact .inl (by linarith)
    · exact absurd rfl other
    · have := (upper_closer (by linarith)).mp equal.le
      exact .inr (by linarith)
  · rintro (rfl | rfl)
    · refine ⟨m - s, below, by linarith, le_antisymm ?_ ?_⟩
      · exact (lower_closer (by linarith)).mpr (by linarith)
      · exact (upper_closer (by linarith)).mpr (by linarith)
    · refine ⟨m + 1, above, by linarith, le_antisymm ?_ ?_⟩
      · exact (upper_closer (by linarith)).mpr (by linarith)
      · exact (lower_closer (by linarith)).mpr (by linarith)

/-! ## Neighbours -/

namespace Format

variable {f : Format} {m : Nat} {e : Int}

/-- How far the next number below is away, in steps of the number: half a step
below a power of two. -/
def stepDown (f : Format) (m : Nat) (e : Int) : ℚ :=
  if m = 2 ^ f.precision ∧ f.minExponent < e then 1 / 2 else 1

theorem stepDown_bounds (f : Format) (m : Nat) (e : Int) :
    1 / 2 ≤ f.stepDown m e ∧ f.stepDown m e ≤ 1 := by
  unfold stepDown
  split <;> norm_num

end Format

end GaugeExporter.Binary

namespace GaugeExporter.Decimal

open Binary

section Neighbours

variable {f : Format} {m : Nat} {e : Int}

theorem Canonical.holds_above (canonical : Canonical f m e) :
    f.Holds (((m : ℚ) + 1) * 2 ^ e) := by
  have bound := canonical.bound
  have positive : (0 : ℤ) ≤ m + 1 := by omega
  by_cases full : m + 1 = 2 ^ (f.precision + 1)
  · refine ⟨2 ^ f.precision, e + 1, ?_, by have := canonical.floor; omega, ?_⟩
    · rw [abs_of_nonneg (by positivity)]
      exact pow_lt_pow_right₀ (by norm_num) (by omega)
    · have carried : (m : ℚ) + 1 = 2 ^ (f.precision + 1) := by exact_mod_cast full
      rw [carried, zpow_add_one₀ (by norm_num), pow_succ]
      push_cast
      ring
  · refine ⟨m + 1, e, ?_, canonical.floor, by push_cast; ring⟩
    rw [abs_of_nonneg positive]
    exact_mod_cast show m + 1 < 2 ^ (f.precision + 1) by omega

theorem Canonical.holds_below (canonical : Canonical f m e) :
    f.Holds (((m : ℚ) - f.stepDown m e) * 2 ^ e) := by
  have bound := canonical.bound
  have positive := canonical.positive
  unfold Format.stepDown
  split
  next power =>
    refine ⟨2 * m - 1, e - 1, ?_, by omega, ?_⟩
    · rw [abs_of_nonneg (by omega), power.1]
      push_cast
      rw [pow_succ]
      omega
    · rw [zpow_sub_one₀ (by norm_num)]
      push_cast
      ring
  next =>
    refine ⟨m - 1, e, ?_, canonical.floor, by push_cast; ring⟩
    rw [abs_of_nonneg (by omega)]
    have : (m : ℤ) < 2 ^ (f.precision + 1) := by exact_mod_cast bound
    omega

/-- On a finer scale all significands lie below the power of two. -/
theorem Canonical.apart_finer (canonical : Canonical f m e) {M E : Int}
    (bound : |M| < 2 ^ (f.precision + 1)) (floor : f.minExponent ≤ E) (finer : E < e) :
    (M : ℚ) * 2 ^ E / 2 ^ e ≤ m - f.stepDown m e := by
  have above : f.minExponent < e := by omega
  have leading := canonical.leading above
  have half : (2 : ℚ) ^ E ≤ 2 ^ e * 2⁻¹ := by
    rw [← zpow_sub_one₀ (by norm_num)]
    exact zpow_le_zpow_right₀ (by norm_num) (by omega)
  have bound : |(M : ℚ)| ≤ 2 * 2 ^ f.precision - 1 := by
    have : |M| ≤ 2 * 2 ^ f.precision - 1 := by
      rw [pow_succ] at bound
      omega
    exact_mod_cast this
  have lower : (M : ℚ) * 2 ^ E / 2 ^ e ≤ 2 ^ f.precision - 1 / 2 := by
    rw [div_le_iff₀ (two_zpow_pos e)]
    calc (M : ℚ) * 2 ^ E ≤ |(M : ℚ)| * 2 ^ E :=
          mul_le_mul_of_nonneg_right (le_abs_self _) (two_zpow_pos E).le
      _ ≤ |(M : ℚ)| * (2 ^ e * 2⁻¹) := mul_le_mul_of_nonneg_left half (abs_nonneg _)
      _ ≤ (2 * 2 ^ f.precision - 1) * (2 ^ e * 2⁻¹) :=
          mul_le_mul_of_nonneg_right bound (by positivity)
      _ = (2 ^ f.precision - 1 / 2) * 2 ^ e := by ring
  refine lower.trans ?_
  unfold Format.stepDown
  split
  next isPower =>
    rw [isPower.1]
    push_cast
    exact le_refl _
  next other =>
    have more : 2 ^ f.precision + 1 ≤ m := by
      have : m ≠ 2 ^ f.precision := fun same => other ⟨same, above⟩
      omega
    have more : (2 : ℚ) ^ f.precision + 1 ≤ m := by exact_mod_cast more
    linarith

/-- Nothing that the format holds lies between a number and its neighbours. -/
theorem Canonical.apart (canonical : Canonical f m e) {v : ℚ} (holds : f.Holds v) :
    v / 2 ^ e ≤ m - f.stepDown m e ∨ v / 2 ^ e = m ∨ m + 1 ≤ v / 2 ^ e := by
  obtain ⟨M, E, bound, floor, rfl⟩ := holds
  have down := f.stepDown_bounds m e
  rcases Int.lt_or_le E e with finer | coarser
  · exact .inl (canonical.apart_finer bound floor finer)
  · -- on a coarser scale the steps are whole ones
    obtain ⟨k, rfl⟩ : ∃ k : Nat, E = e + k := ⟨(E - e).toNat, by omega⟩
    have whole : (M : ℚ) * 2 ^ (e + k : ℤ) = (M * 2 ^ k : ℤ) * 2 ^ e := by
      rw [zpow_add₀ (by norm_num), zpow_natCast]
      push_cast
      ring
    rw [whole, mul_div_cancel_right₀ _ (two_zpow_pos e).ne']
    rcases lt_trichotomy (M * 2 ^ k) (m : ℤ) with less | same | more
    · have less : ((M * 2 ^ k : ℤ) : ℚ) ≤ m - 1 := by exact_mod_cast Int.le_sub_one_of_lt less
      exact .inl (by linarith)
    · exact .inr (.inl (by exact_mod_cast same))
    · exact .inr (.inr (by exact_mod_cast more))

/-! ## Rounding as an interval -/

variable {q : ℚ}

/-- An interval reaches half way to the neighbours of its number, with its ends
if the significand is even. -/
theorem contains_iff_steps (positive : 0 < m) :
    (Interval.around f m e).Contains q ↔
      (m - f.stepDown m e / 2 ≤ q / 2 ^ e ∧ q / 2 ^ e ≤ m + 1 / 2) ∧
        (q / 2 ^ e = m - f.stepDown m e / 2 ∨ q / 2 ^ e = m + 1 / 2 → m % 2 = 0) := by
  have half : f.stepDown m e / 2
      = if m = 2 ^ f.precision ∧ f.minExponent < e then (1 : ℚ) / 4 else 1 / 2 := by
    unfold Format.stepDown
    split <;> norm_num
  have down := f.stepDown_bounds m e
  rw [contains_around positive, ← half]
  generalize q / 2 ^ e = t
  split
  next even => exact ⟨fun inside => ⟨inside, fun _ => even⟩, And.left⟩
  next odd =>
    constructor
    · rintro ⟨low, high⟩
      refine ⟨⟨low.le, high.le⟩, ?_⟩
      rintro (rfl | rfl)
      · exact absurd low (lt_irrefl _)
      · exact absurd high (lt_irrefl _)
    · rintro ⟨⟨low, high⟩, tie⟩
      exact ⟨lt_of_le_of_ne low fun same => odd (tie (.inl same.symm)),
        lt_of_le_of_ne high fun same => odd (tie (.inr same))⟩

/-- The numbers that round to a positive number are those of its interval. -/
theorem Canonical.contains_iff (canonical : Canonical f m e) :
    (Interval.around f m e).Contains q ↔
      (∀ v, f.Holds v → |m * 2 ^ e - q| ≤ |v - q|) ∧
        ((∃ v, f.Holds v ∧ v ≠ m * 2 ^ e ∧ |v - q| = |m * 2 ^ e - q|) → m % 2 = 0) := by
  have power := two_zpow_pos e
  have down := f.stepDown_bounds m e
  have scale (v : ℚ) : v / 2 ^ e * 2 ^ e = v := div_mul_cancel₀ v power.ne'
  have steps (a : ℚ) : |a * 2 ^ e - q| = |a - q / 2 ^ e| * 2 ^ e := by
    rw [← abs_of_pos power, ← abs_mul, abs_of_pos power, sub_mul, scale]
  have apart (w : ℚ) (held : f.Holds (w * 2 ^ e)) :
      w ≤ m - f.stepDown m e ∨ w = m ∨ m + 1 ≤ w := by
    simpa [power.ne'] using canonical.apart held
  have everyone : (∀ v, f.Holds v → |m * 2 ^ e - q| ≤ |v - q|) ↔
      ∀ w, f.Holds (w * 2 ^ e) → |(m : ℚ) - q / 2 ^ e| ≤ |w - q / 2 ^ e| := by
    constructor
    · intro closest w held
      have := closest _ held
      rwa [steps, steps, mul_le_mul_iff_of_pos_right power] at this
    · intro closest v held
      rw [← scale v] at held ⊢
      rw [steps, steps, mul_le_mul_iff_of_pos_right power]
      exact closest _ held
  have someone : (∃ v, f.Holds v ∧ v ≠ m * 2 ^ e ∧ |v - q| = |m * 2 ^ e - q|) ↔
      ∃ w, f.Holds (w * 2 ^ e) ∧ w ≠ m ∧ |w - q / 2 ^ e| = |(m : ℚ) - q / 2 ^ e| := by
    constructor
    · rintro ⟨v, held, other, equal⟩
      rw [← scale v] at held other equal
      rw [steps, steps, mul_left_inj' power.ne'] at equal
      exact ⟨_, held, fun same => other (by rw [same]), equal⟩
    · rintro ⟨w, held, other, equal⟩
      refine ⟨_, held, fun same => other (mul_right_cancel₀ power.ne' same), ?_⟩
      rw [steps, steps, equal]
  rw [contains_iff_steps canonical.positive, everyone, someone,
    closest_iff (by linarith) apart canonical.holds_below canonical.holds_above]
  refine and_congr_right fun near => imp_congr_left ?_
  exact (tie_iff (by linarith) apart canonical.holds_below canonical.holds_above near).symm

end Neighbours

/-! ## Rounding to a double -/

section Doubles

variable {x : Double} {negative : Bool} {m : Nat} {e : Int} {q : ℚ}

theorem value_of_parts (finite : x.number = .finite negative m e) :
    x.value = signed negative (m * 2 ^ e) := by
  rw [Double.value, finite]

theorem isNegative_of_parts (finite : x.number = .finite negative m e) :
    x.isNegative = negative := by
  rw [Double.isNegative, finite]

theorem isEven_of_parts (finite : x.number = .finite negative m e) :
    x.isEven = true ↔ m % 2 = 0 := by
  rw [Double.isEven, finite, decide_eq_true_eq]

/-- Rounding in terms of the parts of a double, for a number of the same sign. -/
theorem nearest_iff_parts (finite : x.number = .finite negative m e) :
    x.Nearest (signed negative q) ↔
      (∀ v, double.Holds v → |m * 2 ^ e - q| ≤ |v - q|) ∧
        ((∃ v, double.Holds v ∧ v ≠ m * 2 ^ e ∧ |v - q| = |m * 2 ^ e - q|) → m % 2 = 0) := by
  have value := value_of_parts finite
  constructor
  · intro nearest
    refine ⟨fun v holds => ?_, ?_⟩
    · have closest := nearest.closest _ (holds.signed negative)
      rwa [value, abs_signed_sub, abs_signed_sub] at closest
    · rintro ⟨v, holds, other, equal⟩
      refine (isEven_of_parts finite).mp (nearest.even _ (holds.signed negative) ?_ ?_)
      · rwa [value, Ne, signed_inj]
      · rw [value, abs_signed_sub, abs_signed_sub, equal]
  · rintro ⟨closest, even⟩
    refine ⟨by rw [Double.isFinite, finite], fun v holds => ?_, fun v holds other equal => ?_⟩
    · rw [← signed_signed negative v, value, abs_signed_sub, abs_signed_sub]
      exact closest _ (holds.signed negative)
    · rw [← signed_signed negative v, value] at other equal
      rw [abs_signed_sub, abs_signed_sub] at equal
      rw [Ne, signed_inj] at other
      exact (isEven_of_parts finite).mpr (even ⟨_, holds.signed negative, other, equal⟩)

/-- The numbers that round to a double that is not zero are those of its
interval. -/
theorem nearest_iff (finite : x.number = .finite negative m e) (positive : 0 < m) :
    x.Nearest (signed negative q) ↔ (Interval.around double m e).Contains q := by
  obtain ⟨-, zero | canonical⟩ := canonical_of_finite finite
  · omega
  · rw [nearest_iff_parts finite, canonical.contains_iff]

/-- No number rounds to zero that is more than half of the least positive one. -/
theorem le_of_nearest_zero (finite : x.number = .finite negative 0 e)
    (nearest : x.Nearest (signed negative q)) : q ≤ 1 / 2 * 2 ^ (-1074 : Int) := by
  obtain ⟨closest, -⟩ := (nearest_iff_parts finite).mp nearest
  have least : double.Holds (2 ^ (-1074 : Int)) := ⟨1, -1074, by decide, by decide, by simp⟩
  have closer := closest _ least
  rw [Nat.cast_zero, zero_mul] at closer
  have := (lower_closer (two_zpow_pos (-1074))).mp closer
  linarith

theorem nearest_zero (finite : x.number = .finite negative 0 e) :
    x.Nearest (signed negative 0) := by
  refine (nearest_iff_parts finite).mpr ⟨fun v _ => ?_, fun _ => rfl⟩
  simp

/-- The shortest decimal of a double rounds to it. -/
theorem nearest_shortest (finite : x.number = .finite negative m e) :
    x.Nearest (signed negative (shortest double m e).value) := by
  obtain ⟨-, ⟨rfl, -⟩ | canonical⟩ := canonical_of_finite finite
  · rw [shortest, if_pos rfl, value_eq_zero]
    exact nearest_zero finite
  · exact (nearest_iff finite canonical.positive).mpr (shortest_contains canonical.positive)

/-- Half of the least positive double and all below it become zero. -/
theorem ofRatio_of_small {N D : Nat} (hN : 0 < N) (hD : 0 < D)
    (small : (N : ℚ) / D ≤ 1 / 2 * 2 ^ (-1074 : Int)) : double.ofRatio N D = 0 := by
  have power := two_zpow_pos (-1074)
  have floor : double.minExponent = -1074 := by decide
  have low : ratioLog N D ≤ -1074 := by
    have reached := (ratioLog_spec hN hD).1.trans small
    have below : (2 : ℚ) ^ ratioLog N D ≤ 2 ^ (-1074 : Int) := by linarith
    exact (zpow_le_zpow_iff_right₀ (by norm_num)).mp below
  have width : double.precision = 52 := rfl
  have scale : max double.minExponent (ratioLog N D - double.precision) = -1074 := by omega
  have atMost : (N : ℚ) / D / 2 ^ (-1074 : Int) ≤ 0 + 1 / 2 := by
    rw [zero_add]
    exact (div_le_iff₀ power).mpr small
  have atLeast : (0 : ℚ) - 1 / 2 ≤ N / D / 2 ^ (-1074 : Int) :=
    le_trans (by norm_num) (div_nonneg (div_nonneg N.cast_nonneg D.cast_nonneg) power.le)
  rw [← Nat.cast_zero] at atMost atLeast
  rw [Format.ofRatio_of_near hN hD scale atLeast atMost fun _ => rfl]
  decide

theorem toDouble_of_small {d : Decimal} (small : d.value ≤ 1 / 2 * 2 ^ (-1074 : Int)) :
    toDouble negative d = .zero negative := by
  rw [toDouble]
  split
  · rfl
  next some =>
    have positive : 0 < d.significand := by omega
    have near : ¬ reach < d.exponent + digitCount d.significand := by
      intro far
      have least : (2 : ℚ) ^ (-1074 : Int) ≤ 1 := zpow_le_one_of_nonpos₀ (by norm_num) (by norm_num)
      have low := (value_bounds positive).1
      have high : (10 : ℚ) ^ (1 : Int) < 10 ^ (d.exponent + digitCount d.significand) := by
        rw [reach] at far
        exact zpow_lt_zpow_right₀ (by norm_num) (by omega)
      rw [zpow_one] at high
      linarith
    rw [← quotient_eq_value] at small
    rw [if_neg near, Double.ofRatio, ofRatio_of_small ?_ ?_ small]
    · cases negative <;> decide
    · exact Nat.mul_pos positive (Nat.pow_pos (by decide))
    · exact Nat.pow_pos (by decide)

/-- The reading of numerals rounds correctly: whatever a decimal rounds to is
what it becomes. -/
theorem toDouble_of_nearest {d : Decimal} (finite : x.number = .finite negative m e)
    (nearest : x.Nearest (signed negative d.value)) : toDouble negative d = x := by
  obtain ⟨high, zero | canonical⟩ := canonical_of_finite finite
  · obtain ⟨rfl, rfl⟩ := zero
    rw [eq_zero_of_parts finite]
    exact toDouble_of_small (le_of_nearest_zero finite nearest)
  · exact toDouble_of_contains finite canonical high
      ((nearest_iff finite canonical.positive).mp nearest)

end Doubles

end GaugeExporter.Decimal
