import Mathlib.Algebra.Order.Field.Power
import Mathlib.Tactic.Ring
import GaugeExporter.Decimal.Layout
import GaugeExporter.Decimal.Numeral
import GaugeExporter.Proofs.Text.Runs

/-!
# Reading a layout back

Both layouts of a decimal are numerals again, and what is read from them has the
value of the decimal (`unsigned?_positional`, `unsigned?_scientific`).  Only the
zeros behind a whole number are read as digits; everywhere else the very decimal
comes back.  The non-trivial ingredient is how a numeral falls into its parts
(`unsigned?_whole`, `unsigned?_pointed`).
-/

namespace GaugeExporter.Decimal

open GaugeExporter.Text (stops_nil stops_cons takeWhile_run dropWhile_run)

/-! ## Values -/

/-- The number that a decimal denotes. -/
def value (d : Decimal) : ℚ := d.significand * 10 ^ d.exponent

theorem value_strip (d : Decimal) : d.strip.value = d.value := by
  induction d using strip.induct with
  | case1 d done => rw [strip, if_pos done]
  | case2 d more ih =>
    rw [strip, if_neg more, ih, value, value]
    have divides : d.significand = d.significand / 10 * 10 := by omega
    rw [zpow_add_one₀ (by norm_num : (10 : ℚ) ≠ 0), mul_comm ((10 : ℚ) ^ d.exponent), ← mul_assoc]
    congr 1
    exact_mod_cast divides.symm

theorem value_eq_zero (exponent : Int) : value ⟨0, exponent⟩ = 0 := by
  simp [value]

/-! ## Runs of digits -/

theorem digits_ne_nil (n : Nat) : digits n ≠ [] := by
  intro none
  have length := length_digits n
  rw [none, digitCount] at length
  split at length <;> simp at length

/-- Reading on from a number shifts it to the left. -/
theorem foldl_digits (n : Nat) (cs : List Char) :
    cs.foldl (fun n c => 10 * n + digitValue c) n = n * 10 ^ cs.length + ofDigits cs := by
  induction cs generalizing n with
  | nil => simp [ofDigits]
  | cons c rest ih =>
    have first : ofDigits (c :: rest)
        = (10 * 0 + digitValue c) * 10 ^ rest.length + ofDigits rest := ih _
    rw [List.foldl_cons, ih, first, List.length_cons, pow_succ]
    ring

theorem ofDigits_append (front back : List Char) :
    ofDigits (front ++ back) = ofDigits front * 10 ^ back.length + ofDigits back := by
  rw [ofDigits, List.foldl_append, foldl_digits]
  rfl

theorem ofDigits_zeros (k : Nat) : ofDigits (List.replicate k '0') = 0 := by
  induction k with
  | zero => rfl
  | succ k ih => rw [List.replicate_succ', ofDigits_concat, ih]; rfl

theorem ofDigits_lt {cs : List Char} (all : ∀ c ∈ cs, c.isDigit = true) :
    ofDigits cs < 10 ^ cs.length := by
  induction cs with
  | nil => decide
  | cons c cs ih =>
    have rest := ih fun d member => all d (List.mem_cons_of_mem _ member)
    have high : c.toNat ≤ 57 := (Char.isDigit_iff_toNat.mp (all c List.mem_cons_self)).2
    have digit : ofDigits [c] ≤ 9 := by
      change 10 * 0 + (c.toNat - 48) ≤ 9
      omega
    rw [← List.singleton_append, ofDigits_append, List.length_append, pow_add,
      List.length_singleton]
    calc ofDigits [c] * 10 ^ cs.length + ofDigits cs
        < ofDigits [c] * 10 ^ cs.length + 10 ^ cs.length := by omega
      _ = (ofDigits [c] + 1) * 10 ^ cs.length := by rw [Nat.add_mul, Nat.one_mul]
      _ ≤ 10 ^ 1 * 10 ^ cs.length := Nat.mul_le_mul_right _ (by omega)

/-- The text does not go on with a digit. -/
def EndsDigits (text : List Char) : Prop := ∀ c, text.head? = some c → c.isDigit = false

/-! ## Parts of a numeral -/

theorem sign_digits {text : List Char} (first : ∀ c, text.head? = some c → c.isDigit = true) :
    sign text = (false, text) := by
  unfold sign
  split
  · exact absurd (first _ rfl) (by decide)
  · exact absurd (first _ rfl) (by decide)
  · rfl

theorem head_digits {n : Nat} {c : Char} (first : (digits n).head? = some c) : c.isDigit = true :=
  isDigit_of_mem_digits (List.mem_of_mem_head? first)

theorem exponentPart?_integer (power : Int) :
    exponentPart? ('e' :: integer power) = some power := by
  have all : (digits power.natAbs).all Char.isDigit = true :=
    List.all_eq_true.mpr fun c member => isDigit_of_mem_digits member
  rw [exponentPart?, if_pos (.inl rfl), integer]
  by_cases negative : power < 0
  · rw [if_pos negative]
    simp only [sign]
    rw [if_pos ⟨digits_ne_nil _, all⟩, ofDigits_digits, if_pos trivial]
    congr 1
    omega
  · rw [if_neg negative, sign_digits fun c => head_digits]
    simp only
    rw [if_pos ⟨digits_ne_nil _, all⟩, ofDigits_digits]
    simp only [Bool.false_eq_true, if_false]
    congr 1
    omega

variable {whole fraction tail : List Char}

theorem unsigned?_whole (nonempty : whole ≠ []) (all : ∀ c ∈ whole, c.isDigit = true)
    (ends : ∀ c, tail.head? = some c → c.isDigit = false ∧ c ≠ '.') :
    unsigned? (whole ++ tail) = (exponentPart? tail).map fun power => ⟨ofDigits whole, power⟩ := by
  have stops : EndsDigits tail := fun c first => (ends c first).1
  rw [unsigned?, takeWhile_run all stops, dropWhile_run all stops]
  cases tail with
  | nil => simp [nonempty]
  | cons c rest =>
    have noPoint := (ends c rfl).2
    split
    next split =>
      split at split
      next same => exact absurd (List.cons.inj same).1 noPoint
      next =>
        cases split
        rw [if_neg fun none => nonempty none.1]
        simp

theorem unsigned?_pointed (nonempty : whole ≠ []) (all : ∀ c ∈ whole, c.isDigit = true)
    (allBehind : ∀ c ∈ fraction, c.isDigit = true) (ends : EndsDigits tail) :
    unsigned? (whole ++ '.' :: (fraction ++ tail))
      = (exponentPart? tail).map fun power =>
          ⟨ofDigits (whole ++ fraction), power - (fraction.length : Nat)⟩ := by
  have point : EndsDigits ('.' :: (fraction ++ tail)) := stops_cons rfl _
  rw [unsigned?, takeWhile_run all point, dropWhile_run all point]
  simp only
  rw [takeWhile_run allBehind ends, dropWhile_run allBehind ends,
    if_neg fun none => nonempty none.1]

/-! ## Layouts -/

theorem digits_allDigits (n : Nat) : ∀ c ∈ digits n, c.isDigit = true := fun _ =>
  isDigit_of_mem_digits

/-- A numeral without an exponent, cut at a point. -/
theorem unsigned?_fraction (nonempty : whole ≠ []) (all : ∀ c ∈ whole, c.isDigit = true)
    (allBehind : ∀ c ∈ fraction, c.isDigit = true) :
    unsigned? (whole ++ '.' :: fraction)
      = some ⟨ofDigits (whole ++ fraction), -(fraction.length : Nat)⟩ := by
  have read := unsigned?_pointed nonempty all allBehind (stops_nil Char.isDigit)
  rw [List.append_nil] at read
  rw [read, exponentPart?, Option.map_some, zero_sub]

/-- The zeros behind a whole number are read as digits. -/
theorem unsigned?_of_whole {d : Decimal} (whole : 0 ≤ d.exponent) :
    ∃ d', unsigned? d.positional = some d' ∧ d'.value = d.value := by
  rw [positional]
  simp only [if_pos whole]
  by_cases zero : d.significand = 0
  · refine ⟨⟨0, 0⟩, by rw [if_pos zero]; decide, ?_⟩
    simp [value, zero]
  · rw [if_neg zero]
    have all : ∀ c ∈ digits d.significand ++ List.replicate d.exponent.toNat '0',
        c.isDigit = true := by
      intro c member
      cases List.mem_append.mp member with
      | inl inDigits => exact digits_allDigits _ c inDigits
      | inr inZeros => rw [(List.mem_replicate.mp inZeros).2]; rfl
    have nonempty : digits d.significand ++ List.replicate d.exponent.toNat '0' ≠ [] := by
      simp [digits_ne_nil]
    have read := @unsigned?_whole _ [] nonempty all nofun
    rw [List.append_nil] at read
    refine ⟨_, read, ?_⟩
    rw [value, value, ofDigits_append, ofDigits_digits, ofDigits_zeros, List.length_replicate,
      zpow_zero, mul_one, Nat.add_zero, Nat.cast_mul, Nat.cast_pow, ← zpow_natCast,
      Int.toNat_of_nonneg whole]
    rfl

/-- Digits begin with a zero only where there is one digit. -/
theorem digits_leading {n : Nat} {rest : List Char} (zero : digits n = '0' :: rest) :
    rest = [] := by
  induction n using digits.induct generalizing rest with
  | case1 n small =>
    rw [digits, if_pos small] at zero
    exact (List.cons.inj zero).2.symm
  | case2 n large ih =>
    rw [digits, if_neg large] at zero
    obtain none | ⟨front, split, -⟩ := List.append_eq_cons_iff.mp zero
    · exact absurd none.1 (digits_ne_nil _)
    · have number := ofDigits_digits (n / 10)
      rw [split, ih split] at number
      simp [ofDigits, digitValue] at number
      omega

/-- With a point the digits stand among or behind zeros, which leave the number
as it is. -/
theorem positional_of_fraction {d : Decimal} (fractional : d.exponent < 0) :
    ∃ whole places, d.positional = whole ++ '.' :: places ∧ whole ≠ [] ∧ places ≠ [] ∧
      (∀ c ∈ whole, c.isDigit = true) ∧ (∀ c ∈ places, c.isDigit = true) ∧
      (∀ rest, whole = '0' :: rest → rest = []) ∧
      ofDigits (whole ++ places) = d.significand ∧ -(places.length : Int) = d.exponent := by
  obtain ⟨n, exponent⟩ := d
  simp only at fractional
  have count : ((-exponent).toNat : Int) = -exponent := Int.toNat_of_nonneg (by omega)
  have all := digits_allDigits n
  rw [positional]
  simp only
  rw [if_neg (by omega)]
  by_cases inside : (-exponent).toNat < (digits n).length
  · rw [if_pos inside]
    refine ⟨_, _, rfl, ?_, ?_, fun c member => all c (List.mem_of_mem_take member),
      fun c member => all c (List.mem_of_mem_drop member), ?_, ?_, ?_⟩
    · intro none
      have := congrArg List.length none
      rw [List.length_take, List.length_nil] at this
      omega
    · intro none
      have := congrArg List.length none
      rw [List.length_drop, List.length_nil] at this
      omega
    · intro rest front
      have zero := List.take_append_drop ((digits n).length - (-exponent).toNat) (digits n)
      rw [front] at zero
      exact (List.append_eq_nil_iff.mp (digits_leading zero.symm)).1
    · rw [List.take_append_drop, ofDigits_digits]
    · rw [List.length_drop]
      omega
  · rw [if_neg inside]
    refine ⟨['0'], List.replicate ((-exponent).toNat - (digits n).length) '0' ++ digits n, rfl,
      List.cons_ne_nil _ _, ?_, ?_, ?_, ?_, ?_, ?_⟩
    · exact fun none => digits_ne_nil n (List.append_eq_nil_iff.mp none).2
    · intro c member
      rw [List.mem_singleton.mp member]
      rfl
    · intro c member
      cases List.mem_append.mp member with
      | inl inZeros => rw [(List.mem_replicate.mp inZeros).2]; rfl
      | inr inDigits => exact all c inDigits
    · intro rest front
      exact (List.cons.inj front).2.symm
    · rw [ofDigits_append, ofDigits_append, ofDigits_zeros, ofDigits_digits]
      simp [ofDigits, digitValue]
    · rw [List.length_append, List.length_replicate]
      omega

/-- With a point among or in front of the digits the decimal itself comes
back. -/
theorem unsigned?_of_fraction {d : Decimal} (fractional : d.exponent < 0) :
    unsigned? d.positional = some d := by
  obtain ⟨whole, places, shape, nonempty, -, all, allBehind, -, number, power⟩ :=
    positional_of_fraction fractional
  rw [shape, unsigned?_fraction nonempty all allBehind, number, power]

theorem unsigned?_positional (d : Decimal) :
    ∃ d', unsigned? d.positional = some d' ∧ d'.value = d.value := by
  by_cases whole : 0 ≤ d.exponent
  · exact unsigned?_of_whole whole
  · exact ⟨d, unsigned?_of_fraction (by omega), rfl⟩

/-- The power behind the mantissa is that of the first digit. -/
theorem value_of_power (n : Nat) (exponent : Int) (places : Nat) :
    value ⟨n, (if n = 0 then 0 else exponent + (places : Nat)) - (places : Nat)⟩
      = value ⟨n, exponent⟩ := by
  by_cases zero : n = 0
  · rw [zero, value_eq_zero, value_eq_zero]
  · rw [if_neg zero, Int.add_sub_cancel]

theorem unsigned?_scientific (d : Decimal) :
    ∃ d', unsigned? d.scientific = some d' ∧ d'.value = d.value := by
  obtain ⟨n, exponent⟩ := d
  have number := ofDigits_digits n
  have all := digits_allDigits n
  have nonempty := digits_ne_nil n
  have stops : ∀ power c, ('e' :: integer power).head? = some c →
      c.isDigit = false ∧ c ≠ '.' := by
    intro power c first
    cases first
    decide
  rw [scientific]
  simp only
  cases text : digits n with
  | nil => exact absurd text nonempty
  | cons first rest =>
    rw [text] at number all
    cases rest with
    | nil =>
      rw [unsigned?_whole (by simp) all (stops _), exponentPart?_integer, number]
      refine ⟨_, rfl, ?_⟩
      have power := value_of_power n exponent 0
      simpa using power
    | cons second rest =>
      have read : ∀ power, unsigned? (first :: '.' :: second :: rest ++ 'e' :: integer power)
          = some ⟨n, power - ((second :: rest).length : Nat)⟩ := by
        intro power
        have pointed := @unsigned?_pointed [first] (second :: rest) ('e' :: integer power) (by simp)
          (fun c member => all c (List.mem_cons.mpr (.inl (List.mem_singleton.mp member))))
          (fun c member => all c (List.mem_cons_of_mem _ member))
          fun c head => (stops power c head).1
        rw [exponentPart?_integer, List.singleton_append, List.singleton_append, number] at pointed
        exact pointed
      rw [read]
      exact ⟨_, rfl, value_of_power n exponent _⟩

/-- The shorter layout is read back like either of them. -/
theorem unsigned?_of_layout {d : Decimal} {text : List Char}
    (layout : text = d.positional ∨ text = d.scientific) :
    ∃ d', unsigned? text = some d' ∧ d'.value = d.value := by
  cases layout with
  | inl positional => exact positional ▸ unsigned?_positional d
  | inr scientific => exact scientific ▸ unsigned?_scientific d

end GaugeExporter.Decimal
