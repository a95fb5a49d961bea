import GaugeExporter.Proofs.Decimal.RoundTrip
import GaugeExporter.Proofs.Text.Runs
import GaugeExporter.Toml.Lexical
import GaugeExporter.Toml.Printer

/-!
# Numbers come back

An integer of 64 bits is read back from its digits (`integer?_integer`), and a
float from the shortest digits with a point among them (`float?_floatText`), bit
for bit except that there is one NaN.
-/

namespace GaugeExporter.Toml

open Decimal
open Binary (Double double)
open GaugeExporter.Text (Stops stops_nil stops_cons takeWhile_run dropWhile_run)

/-! ## Runs of digits -/

theorem ungroup?_run {isDigit : Char → Bool} {run : List Char} (nonempty : run ≠ [])
    (all : ∀ c ∈ run, isDigit c = true ∧ c ≠ '_') : ungroup? isDigit run = some run := by
  induction run with
  | nil => contradiction
  | cons c run ih =>
    obtain ⟨digit, -⟩ := all c List.mem_cons_self
    cases run with
    | nil => exact if_pos digit
    | cons d run =>
      have other : d ≠ '_' := (all d (by simp)).2
      have later := ih (List.cons_ne_nil _ _) fun e member => all e (List.mem_cons_of_mem _ member)
      rw [ungroup?.eq_4 _ _ _ (List.cons_ne_nil _ _) (fun _ _ same => other (List.cons.inj same).1),
        if_pos digit, later]
      rfl

theorem ungroup?_none {isDigit : Char → Bool} {cs : List Char} {c : Char} (member : c ∈ cs)
    (other : isDigit c = false) (notMark : c ≠ '_') : ungroup? isDigit cs = none := by
  have isOther : ∀ d, isDigit d = true → c ≠ d := by
    rintro d digit rfl
    rw [other] at digit
    cases digit
  fun_induction ungroup? isDigit cs with
  | case1 => rfl
  | case2 d digit => exact absurd (List.mem_singleton.mp member) (isOther d digit)
  | case3 d notDigit => rfl
  | case4 d e rest digit ih =>
    rw [List.mem_cons, List.mem_cons] at member
    rw [ih ((member.resolve_left (isOther d digit)).resolve_left notMark)]
    rfl
  | case5 d e rest notDigit => rfl
  | case6 d rest _ _ digit ih =>
    rw [ih ((List.mem_cons.mp member).resolve_left (isOther d digit))]
    rfl
  | case7 => rfl

theorem isDigit_of_head {run : List Char} (nonempty : run ≠ [])
    (all : ∀ c ∈ run, c.isDigit = true) (rest : List Char) {c : Char}
    (head : (run ++ rest).head? = some c) : c.isDigit = true := by
  cases run with
  | nil => contradiction
  | cons first run =>
    cases head
    exact all c List.mem_cons_self

/-- The text begins like a number and not like a name. -/
def BeginsNumber (cs : List Char) : Prop :=
  ∃ c rest, cs = c :: rest ∧ (c.isDigit = true ∨ c = '-')

theorem BeginsNumber.of_run {run : List Char} (nonempty : run ≠ [])
    (all : ∀ c ∈ run, c.isDigit = true) (rest : List Char) : BeginsNumber (run ++ rest) := by
  obtain ⟨c, more, split⟩ := List.exists_cons_of_ne_nil nonempty
  exact ⟨c, more ++ rest, by rw [split]; rfl, .inl (all c (split ▸ List.mem_cons_self))⟩

theorem BeginsNumber.of_minus (rest : List Char) : BeginsNumber ('-' :: rest) :=
  ⟨'-', rest, rfl, .inr rfl⟩

theorem BeginsNumber.ne_nil {cs : List Char} (begins : BeginsNumber cs) : cs ≠ [] := by
  obtain ⟨c, rest, split, -⟩ := begins
  rw [split]
  exact List.cons_ne_nil _ _

theorem BeginsNumber.ne {cs : List Char} (begins : BeginsNumber cs) {c : Char}
    (letter : c.isDigit = false) (notMinus : c ≠ '-') (rest : List Char) : cs ≠ c :: rest := by
  obtain ⟨first, more, rfl, digit | minus⟩ := begins
  · rintro ⟨⟩
    rw [letter] at digit
    cases digit
  · rintro ⟨⟩
    exact notMinus minus

theorem not_mark_of_digit {c : Char} (digit : c.isDigit = true) : c ≠ '_' := by
  rintro rfl
  cases digit

theorem wholeDigits?_run {run : List Char} (nonempty : run ≠ [])
    (all : ∀ c ∈ run, c.isDigit = true) (leading : ∀ rest, run = '0' :: rest → rest = []) :
    wholeDigits? run = some run := by
  have read := ungroup?_run nonempty fun c member =>
    ⟨all c member, not_mark_of_digit (all c member)⟩
  rw [wholeDigits?, read]
  split
  next zero => cases leading _ (Option.some.inj zero)
  · rfl

theorem wholeDigits?_none {cs : List Char} {c : Char} (member : c ∈ cs)
    (other : c.isDigit = false) (notMark : c ≠ '_') : wholeDigits? cs = none := by
  rw [wholeDigits?, ungroup?_none member other notMark]

/-! ## Integers -/

/-- The text does not begin like a number in another base. -/
def NoBase (cs : List Char) : Prop :=
  ∀ c rest, cs = '0' :: c :: rest → c ≠ 'x' ∧ c ≠ 'o' ∧ c ≠ 'b'

theorem integer?_noBase {cs : List Char} (noBase : NoBase cs) :
    integer? cs = (wholeDigits? (sign cs).2).bind fun digits =>
      let n : Int := if (sign cs).1 then -(ofDigits digits : Int) else ofDigits digits
      if inRange n then some n else none :=
  integer?.eq_4 cs (fun rest same => (noBase 'x' rest same).1 rfl)
    (fun rest same => (noBase 'o' rest same).2.1 rfl)
    (fun rest same => (noBase 'b' rest same).2.2 rfl)

theorem noBase_of_head {c : Char} (other : c ≠ '0') (rest : List Char) : NoBase (c :: rest) :=
  fun _ _ same => absurd (List.cons.inj same).1 other

theorem integer?_digits {cs : List Char} {negative : Bool} {m : Nat} (noBase : NoBase cs)
    (split : sign cs = (negative, digits m)) {n : Int}
    (same : (if negative then -(m : Int) else m) = n) (fits : inRange n = true) :
    integer? cs = some n := by
  have whole := wholeDigits?_run (digits_ne_nil m) (digits_allDigits m) fun _ => digits_leading
  rw [integer?_noBase noBase, split, whole, Option.bind_some, ofDigits_digits]
  simp only [same]
  rw [if_pos fits]

theorem integer?_integer {n : Int} (fits : inRange n = true) :
    integer? (Decimal.integer n) = some n := by
  rw [Decimal.integer]
  split
  next negative =>
    have same : -(n.natAbs : Int) = n := by omega
    exact @integer?_digits _ true _ (noBase_of_head (by decide) _) rfl _ same fits
  next positive =>
    have same : (n.natAbs : Int) = n := by omega
    have noBase : NoBase (digits n.natAbs) := by
      intro c rest zero
      cases digits_leading zero
    exact integer?_digits noBase (sign_digits fun c => head_digits) same fits

theorem integer?_none {cs : List Char} (noBase : NoBase cs) {c : Char} (member : c ∈ (sign cs).2)
    (other : c.isDigit = false) (notMark : c ≠ '_') : integer? cs = none := by
  rw [integer?_noBase noBase, wholeDigits?_none member other notMark]
  rfl

/-! ## Floats -/

/-- There is one NaN. -/
def Standard (x : Double) : Prop := x.isNaN = true → x = .nan

/-- A numeral with a point among its digits. -/
structure Pointed (whole places : List Char) : Prop where
  nonempty : whole ≠ []
  some : places ≠ []
  all : ∀ c ∈ whole, c.isDigit = true
  allBehind : ∀ c ∈ places, c.isDigit = true
  leading : ∀ rest, whole = '0' :: rest → rest = []

theorem magnitude_pointed {d : Decimal} (normal : d.significand = 0 → 0 ≤ d.exponent) :
    ∃ whole places, floatStyle.magnitude d = whole ++ '.' :: places ∧ Pointed whole places ∧
      value ⟨ofDigits (whole ++ places), -(places.length : Int)⟩ = d.value := by
  have magnitude : floatStyle.magnitude d
      = if d.isWhole then d.positional ++ ['.', '0'] else d.positional := rfl
  rw [magnitude]
  by_cases integral : 0 ≤ d.exponent
  · have whole : d.isWhole = true := by
      rw [isWhole, decide_eq_true integral, Bool.or_true]
    rw [if_pos whole, positional]
    simp only [if_pos integral]
    have zero : ∀ c ∈ ['0'], c.isDigit = true := fun c member => by
      rw [List.mem_singleton.mp member]
      rfl
    split
    next none =>
      refine ⟨['0'], ['0'], rfl, ⟨List.cons_ne_nil _ _, List.cons_ne_nil _ _, zero, zero, ?_⟩, ?_⟩
      · exact fun rest front => (List.cons.inj front).2.symm
      · have vanishes := (significand_eq_zero_iff d).mp none
        rw [vanishes]
        exact value_eq_zero _
    next some =>
      refine ⟨_, ['0'], rfl, ⟨?_, List.cons_ne_nil _ _, ?_, zero, ?_⟩, ?_⟩
      · exact fun none => digits_ne_nil _ (List.append_eq_nil_iff.mp none).1
      · intro c member
        cases List.mem_append.mp member with
        | inl inDigits => exact digits_allDigits _ c inDigits
        | inr inZeros => rw [(List.mem_replicate.mp inZeros).2]; rfl
      · intro rest front
        obtain none | ⟨digitsRest, split, -⟩ := List.append_eq_cons_iff.mp front
        · exact absurd none.1 (digits_ne_nil _)
        · have number := ofDigits_digits d.significand
          rw [split, digits_leading split] at number
          exact absurd number.symm some
      · have power : (10 : ℚ) ^ d.exponent = 10 ^ d.exponent.toNat := by
          rw [← zpow_natCast, Int.toNat_of_nonneg integral]
        have number :
            ofDigits (digits d.significand ++ List.replicate d.exponent.toNat '0' ++ ['0'])
            = 10 * (d.significand * 10 ^ d.exponent.toNat) := by
          rw [ofDigits_concat, ofDigits_append, ofDigits_digits, ofDigits_zeros,
            List.length_replicate]
          rfl
        rw [number, value, value, power]
        simp only [List.length_singleton]
        push_cast
        ring
  · have fractional : d.exponent < 0 := by omega
    have notWhole : d.isWhole = false := by
      rw [isWhole, decide_eq_false integral, Bool.or_false, decide_eq_false_iff_not]
      exact fun none => integral (normal none)
    obtain ⟨whole, places, shape, nonempty, some, all, allBehind, leading, number, power⟩ :=
      positional_of_fraction fractional
    rw [notWhole]
    exact ⟨whole, places, shape, ⟨nonempty, some, all, allBehind, leading⟩, by rw [number, power]⟩

/-- No number is written as zeros behind a point. -/
theorem shortest_normal {x : Double} {negative : Bool} {m : Nat} {e : Int}
    (finite : x.number = .finite negative m e) :
    (shortest double m e).significand = 0 → 0 ≤ (shortest double m e).exponent := by
  intro none
  obtain ⟨-, ⟨rfl, -⟩ | canonical⟩ := canonical_of_finite finite
  · rw [shortest, if_pos rfl]
  · exact absurd none
      (significand_pos canonical.positive (shortest_contains canonical.positive)).ne'

theorem float?_pointed {whole places : List Char} (pointed : Pointed whole places)
    (negative : Bool) :
    float? (if negative then '-' :: (whole ++ '.' :: places) else whole ++ '.' :: places)
      = (let x := toDouble negative ⟨ofDigits (whole ++ places), 0 - (places.length : Nat)⟩
        if x = .infinite false then none else some x) := by
  obtain ⟨nonempty, some, all, allBehind, leading⟩ := pointed
  have begins := BeginsNumber.of_run nonempty all ('.' :: places)
  have group : ∀ run : List Char, (∀ c ∈ run, c.isDigit = true) → ∀ c ∈ run, isGroupChar c = true :=
    fun run digits c member => by rw [isGroupChar, digits c member]; rfl
  have behind : (places.takeWhile isGroupChar = places ∧ places.dropWhile isGroupChar = []) := by
    have taken := takeWhile_run (group places allBehind) (stops_nil isGroupChar)
    have dropped := dropWhile_run (group places allBehind) (stops_nil isGroupChar)
    rw [List.append_nil] at taken dropped
    exact ⟨taken, dropped⟩
  have point : Stops isGroupChar ('.' :: places) := stops_cons rfl _
  rw [float?, sign_write fun _ => isDigit_of_head nonempty all _]
  simp only
  have notInfinity : whole ++ '.' :: places ≠ "inf".toList := begins.ne rfl (by decide) _
  have notNaN : whole ++ '.' :: places ≠ "nan".toList := begins.ne rfl (by decide) _
  rw [if_neg notInfinity, if_neg notNaN, takeWhile_run (group whole all) point,
    dropWhile_run (group whole all) point,
    wholeDigits?_run nonempty all leading]
  have read := ungroup?_run some fun c member =>
    ⟨allBehind c member, not_mark_of_digit (allBehind c member)⟩
  simp only [bind, Option.bind_some, fractionDigits?, behind, read, Option.map_some, exponent?]
  rfl

theorem float?_floatText {x : Double} (standard : Standard x) : float? (floatText x) = some x := by
  cases parts : x.number with
  | nan =>
    have isNaN : x.isNaN = true := by rw [Double.isNaN, parts]
    rw [standard isNaN]
    rfl
  | infinite negative =>
    rw [eq_infinite parts]
    cases negative <;> rfl
  | finite negative m e =>
    obtain ⟨whole, places, shape, pointed, same⟩ := magnitude_pointed (shortest_normal parts)
    have back : toDouble negative ⟨ofDigits (whole ++ places), 0 - (places.length : Nat)⟩ = x := by
      rw [zero_sub]
      exact toDouble_of_value parts same
    have notInfinite : x ≠ .infinite false := by
      rintro rfl
      cases parts
    rw [floatText, Text.write_finite floatStyle parts, shape, float?_pointed pointed, back,
      if_neg notInfinite]

end GaugeExporter.Toml
