import GaugeExporter.Proofs.Decimal.Lengths
import GaugeExporter.Proofs.Exposition.Grammar

/-!
# Numerals

The two forms of a numeral with the decimals they denote: plain, and with one
digit in front of the point and a power of ten behind the letter `e`.  A text
rounds to a double if the number it denotes does (`RoundsTo`), and then it is
read as that double (`RoundsTo.reads`), so no text rounds to two of them.
-/

namespace GaugeExporter.Exposition

open Binary (Double signed)
open Decimal (digits digitCount integer ofDigits positional scientific shortest)

/-! ## The forms -/

/-- A run of digits, and a point with more of them behind it if there are any. -/
def pointed (whole fraction : List Char) : List Char :=
  whole ++ if fraction = [] then [] else '.' :: fraction

/-- `[0-9]+(\.[0-9]+)?` with the decimal it denotes. -/
inductive IsPlain : List Char → Decimal → Prop
  | intro {whole fraction : List Char} (isWhole : IsRun whole)
      (digits : ∀ c ∈ fraction, IsDigit c) :
      IsPlain (pointed whole fraction) ⟨ofDigits (whole ++ fraction), -(fraction.length : Int)⟩

/-- `-?[0-9]+` with the integer it denotes. -/
inductive IsPower : List Char → Int → Prop
  | plain {run : List Char} (isRun : IsRun run) : IsPower run (ofDigits run)
  | negative {run : List Char} (isRun : IsRun run) : IsPower ('-' :: run) (-(ofDigits run : Int))

/-- `[0-9](\.[0-9]+)?e-?[0-9]+` with the decimal it denotes. -/
inductive IsScaled : List Char → Decimal → Prop
  | intro {first : Char} {fraction text : List Char} {power : Int} (isFirst : IsDigit first)
      (digits : ∀ c ∈ fraction, IsDigit c) (isPower : IsPower text power) :
      IsScaled (pointed [first] fraction ++ 'e' :: text)
        ⟨ofDigits (first :: fraction), power - (fraction.length : Int)⟩

/-- Either form behind an optional minus sign. -/
def Denotes (text : List Char) (negative : Bool) (c : Decimal) : Prop :=
  ∃ magnitude, text = (if negative then '-' :: magnitude else magnitude) ∧
    (IsPlain magnitude c ∨ IsScaled magnitude c)

/-- The number that the text denotes rounds to the double.  The sign counts where
the result is zero. -/
def RoundsTo (text : List Char) (x : Double) : Prop :=
  ∃ c, Denotes text x.isNegative c ∧ x.Nearest (signed x.isNegative c.value)

/-! ## Reading -/

theorem isDigit_of_IsDigit {c : Char} (digit : IsDigit c) : c.isDigit = true := by
  rw [Char.isDigit, Bool.and_eq_true, decide_eq_true_eq, decide_eq_true_eq]
  exact digit

theorem IsRun.isDigit {run : List Char} (isRun : IsRun run) : ∀ c ∈ run, c.isDigit = true :=
  fun c member => isDigit_of_IsDigit (isRun.2 c member)

theorem isRun_singleton {c : Char} (digit : IsDigit c) : IsRun [c] :=
  ⟨List.cons_ne_nil c [], fun _ member => List.mem_singleton.mp member ▸ digit⟩

/-- A numeral is read up to what ends it. -/
theorem unsigned?_pointed {whole fraction tail : List Char} (isWhole : IsRun whole)
    (digits : ∀ c ∈ fraction, IsDigit c)
    (ends : ∀ c, tail.head? = some c → c.isDigit = false ∧ c ≠ '.') :
    Decimal.unsigned? (pointed whole fraction ++ tail)
      = (Decimal.exponentPart? tail).map fun power =>
          ⟨ofDigits (whole ++ fraction), power - (fraction.length : Int)⟩ := by
  unfold pointed
  split
  next none =>
    simp [none, Decimal.unsigned?_whole isWhole.1 isWhole.isDigit ends]
  next =>
    rw [List.append_assoc, List.cons_append]
    exact Decimal.unsigned?_pointed isWhole.1 isWhole.isDigit
      (fun c member => isDigit_of_IsDigit (digits c member)) fun c first => (ends c first).1

theorem exponentPart?_of_isPower {text : List Char} {power : Int} (isPower : IsPower text power) :
    Decimal.exponentPart? ('e' :: text) = some power := by
  rw [Decimal.exponentPart?, if_pos (.inl rfl)]
  cases isPower with
  | plain isRun =>
    have first : ∀ c, text.head? = some c → c.isDigit = true := fun c first =>
      isRun.isDigit c (List.mem_of_mem_head? first)
    simp only [Decimal.sign_digits first]
    rw [if_pos ⟨isRun.1, List.all_eq_true.mpr isRun.isDigit⟩]
    rfl
  | negative isRun =>
    simp only [Decimal.sign]
    rw [if_pos ⟨isRun.1, List.all_eq_true.mpr isRun.isDigit⟩]
    rfl

theorem IsPlain.reads {text : List Char} {c : Decimal} (isPlain : IsPlain text c) :
    Decimal.unsigned? text = some c := by
  obtain ⟨isWhole, digits⟩ := isPlain
  have read := @unsigned?_pointed _ _ [] isWhole digits nofun
  rw [List.append_nil, Decimal.exponentPart?, Option.map_some, zero_sub] at read
  exact read

theorem IsScaled.reads {text : List Char} {c : Decimal} (isScaled : IsScaled text c) :
    Decimal.unsigned? text = some c := by
  obtain ⟨isFirst, digits, isPower⟩ := isScaled
  rw [unsigned?_pointed (isRun_singleton isFirst) digits (by rintro c ⟨⟩; decide),
    exponentPart?_of_isPower isPower]
  rfl

/-- A numeral begins with a digit. -/
theorem head_pointed {whole : List Char} (isWhole : IsRun whole) (fraction tail : List Char) :
    ∃ first rest, pointed whole fraction ++ tail = first :: rest ∧ first.isDigit = true := by
  cases whole with
  | nil => exact absurd rfl isWhole.1
  | cons first rest => exact ⟨first, _, rfl, isWhole.isDigit first List.mem_cons_self⟩

theorem head_magnitude {text : List Char} {c : Decimal} (form : IsPlain text c ∨ IsScaled text c) :
    ∃ first rest, text = first :: rest ∧ first.isDigit = true := by
  obtain ⟨isWhole, digits⟩ | ⟨isFirst, digits, isPower⟩ := form
  · have head := head_pointed isWhole ‹List Char› []
    rwa [List.append_nil] at head
  · exact head_pointed (isRun_singleton isFirst) _ _

/-- A text is read as what it rounds to. -/
theorem RoundsTo.reads {text : List Char} {x : Double} (rounds : RoundsTo text x) :
    Double.ofText? text = some x := by
  obtain ⟨c, ⟨magnitude, rfl, form⟩, nearest⟩ := rounds
  obtain ⟨negative, m, e, parts⟩ := Double.parts_of_finite nearest.finite
  obtain ⟨first, rest, shape, digit⟩ := head_magnitude form
  have read : Decimal.unsigned? magnitude = some c := form.elim IsPlain.reads IsScaled.reads
  have starts : ∀ c, magnitude.head? = some c → c.isDigit = true := by
    rw [shape]
    rintro _ ⟨⟩
    exact digit
  rw [Decimal.isNegative_of_parts parts] at nearest ⊢
  rw [Double.ofText?, Decimal.sign_write starts]
  simp only
  rw [read, shape, Decimal.named?_digit negative rest digit]
  exact congrArg some (Decimal.toDouble_of_nearest parts nearest)

/-! ## Layouts -/

theorem isPower_integer (n : Int) : IsPower (integer n) n := by
  unfold integer
  have number := Decimal.ofDigits_digits n.natAbs
  split
  · have power := IsPower.negative (isRun_digits n.natAbs)
    rwa [number, show -(n.natAbs : Int) = n by omega] at power
  · have power := IsPower.plain (isRun_digits n.natAbs)
    rwa [number, show (n.natAbs : Int) = n by omega] at power

theorem isPlain_of_isFixed {text : List Char} (isFixed : IsFixed text) : ∃ c, IsPlain text c := by
  cases isFixed with
  | whole isRun =>
    have plain := @IsPlain.intro text [] isRun nofun
    rw [pointed, if_pos rfl, List.append_nil] at plain
    exact ⟨_, plain⟩
  | pointed isWhole isFraction =>
    have plain := IsPlain.intro isWhole isFraction.2
    rw [pointed, if_neg isFraction.1] at plain
    exact ⟨_, plain⟩

/-- The layouts are numerals of the value they lay out. -/
theorem isPlain_positional (d : Decimal) : ∃ c, IsPlain d.positional c ∧ c.value = d.value := by
  obtain ⟨c, isPlain⟩ := isPlain_of_isFixed (isFixed_positional d)
  obtain ⟨d', read, same⟩ := Decimal.unsigned?_positional d
  cases isPlain.reads.symm.trans read
  exact ⟨c, isPlain, same⟩

theorem scientific_eq (d : Decimal) :
    ∃ first rest power, digits d.significand = first :: rest ∧
      d.scientific = pointed [first] rest ++ 'e' :: integer power := by
  unfold scientific
  simp only
  cases text : digits d.significand with
  | nil => exact absurd text (Decimal.digits_ne_nil _)
  | cons first rest => cases rest <;> exact ⟨first, _, _, rfl, rfl⟩

theorem isScaled_scientific (d : Decimal) : ∃ c, IsScaled d.scientific c ∧ c.value = d.value := by
  obtain ⟨first, rest, power, text, shape⟩ := scientific_eq d
  have all := (isRun_digits d.significand).2
  rw [text] at all
  have isScaled := IsScaled.intro (all first List.mem_cons_self)
    (fun c member => all c (List.mem_cons_of_mem first member)) (isPower_integer power)
  rw [← shape] at isScaled
  obtain ⟨d', read, same⟩ := Decimal.unsigned?_scientific d
  cases isScaled.reads.symm.trans read
  exact ⟨_, isScaled, same⟩

/-! ## Lengths -/

theorem digitCount_ofDigits_le {run : List Char} (isRun : IsRun run) :
    digitCount (ofDigits run) ≤ run.length :=
  Decimal.digitCount_le (List.length_pos_iff.mpr isRun.1) (Decimal.ofDigits_lt isRun.isDigit)

theorem IsPower.length_le {text : List Char} {power : Int} (isPower : IsPower text power) :
    (integer power).length ≤ text.length := by
  rw [Decimal.length_integer]
  cases isPower with
  | plain isRun =>
    have := digitCount_ofDigits_le isRun
    rw [if_neg (by omega), Int.natAbs_natCast]
    exact this
  | negative isRun =>
    have := digitCount_ofDigits_le isRun
    rw [Int.natAbs_neg, Int.natAbs_natCast, List.length_cons]
    split <;> omega

theorem length_pointed (whole fraction : List Char) :
    (pointed whole fraction).length
      = whole.length + if fraction.length = 0 then 0 else fraction.length + 1 := by
  rw [pointed, List.length_append]
  cases fraction with
  | nil => rfl
  | cons c rest => simp

/-- Zeros in front make a text no shorter. -/
theorem IsScaled.length_le {text : List Char} {c : Decimal} (isScaled : IsScaled text c)
    (positive : 0 < c.significand) : c.scientific.length ≤ text.length := by
  rw [Decimal.length_scientific positive]
  cases isScaled with
  | @intro first fraction text power isFirst digits isPower =>
    have run : IsRun (first :: fraction) :=
      ⟨List.cons_ne_nil _ _, List.forall_mem_cons.mpr ⟨isFirst, digits⟩⟩
    have count := digitCount_ofDigits_le run
    have some := Decimal.digitCount_pos (ofDigits (first :: fraction))
    have shift := Decimal.length_integer_add
      (Decimal.power ⟨ofDigits (first :: fraction), power - (fraction.length : Int)⟩)
      (fraction.length + 1 - digitCount (ofDigits (first :: fraction)))
    have leading : Decimal.power ⟨ofDigits (first :: fraction), power - (fraction.length : Int)⟩
        + (fraction.length + 1 - digitCount (ofDigits (first :: fraction)) : Nat) = power := by
      rw [List.length_cons] at count
      rw [Decimal.power]
      simp only
      omega
    have := isPower.length_le
    rw [leading] at shift
    rw [List.length_append, length_pointed, List.length_cons, List.length_cons, List.length_nil]
    rw [List.length_cons] at count
    simp only
    split <;> split <;> omega

end GaugeExporter.Exposition
