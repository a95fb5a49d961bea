import GaugeExporter.Proofs.Exposition.Numerals

/-!
# Texts of values

`writeValue_faithful` says that the text of a value tells it from all others:
the text of a finite one rounds to it and to nothing else, and the tokens of the
rest are no numerals.  `writeValue_shortest` says that no numeral of either form
that rounds to a finite value has fewer bytes.  The decimals behind the two
layouts are the same, so a numeral competes with the layout of its own form,
except for plain numerals of very small numbers and of whole ones just below a
power of ten, which the exponent form beats.
-/

namespace GaugeExporter.Exposition

open Binary (Double Number signed double)
open Decimal (Interval digitCount shortest)

/-! ## The text of a finite value -/

section Parts

variable {x : Double} {negative : Bool} {m : Nat} {e : Int}

theorem valueText_of_parts (parts : x.number = .finite negative m e) :
    valueText x = if negative then '-' :: magnitudeText (shortest double m e)
      else magnitudeText (shortest double m e) :=
  Decimal.Text.write_finite valueStyle parts

/-- Whichever layout is taken, it is a numeral of the value. -/
theorem magnitudeText_form (d : Decimal) :
    ∃ c, (IsPlain (magnitudeText d) c ∨ IsScaled (magnitudeText d) c) ∧ c.value = d.value := by
  unfold magnitudeText
  split
  · obtain ⟨c, isScaled, same⟩ := isScaled_scientific d
    exact ⟨c, .inr isScaled, same⟩
  · obtain ⟨c, isPlain, same⟩ := isPlain_positional d
    exact ⟨c, .inl isPlain, same⟩

/-- The text of a finite value denotes a number that rounds to the value. -/
theorem roundsTo_valueText (finite : x.isFinite = true) : RoundsTo (valueText x) x := by
  obtain ⟨negative, m, e, parts⟩ := Double.parts_of_finite finite
  have sign := Decimal.isNegative_of_parts parts
  obtain ⟨c, form, same⟩ := magnitudeText_form (shortest double m e)
  refine ⟨c, ⟨_, ?_, form⟩, ?_⟩
  · rw [sign, valueText_of_parts parts]
  · rw [sign, same]
    exact Decimal.nearest_shortest parts

end Parts

/-! ## Every value has its own text -/

/-- A finite value is all that its text rounds to; the others have a token
each. -/
def Tells (text : List Char) (x : Double) : Prop :=
  match x.number with
  | .finite .. => ∀ y, RoundsTo text y ↔ y = x
  | .nan => text = "Nan".toList
  | .infinite false => text = "+Inf".toList
  | .infinite true => text = "-Inf".toList

theorem tells_valueText (x : Double) : Tells (valueText x) x := by
  have shape : x.number = double.classify x.bits.toNat := rfl
  unfold Tells
  cases parts : x.number with
  | finite negative m e =>
    have rounds := roundsTo_valueText (x := x) (by rw [Double.isFinite, parts])
    intro y
    constructor
    · intro other
      exact Option.some.inj (other.reads.symm.trans rounds.reads)
    · rintro rfl
      exact rounds
  | nan => rw [valueText, Decimal.Text.write, ← shape, parts]; rfl
  | infinite negative =>
    rw [valueText, Decimal.Text.write, ← shape, parts]
    cases negative <;> rfl

/-- The text of any value is read, all NaNs as one. -/
theorem ofText?_valueText_all (x : Double) :
    Double.ofText? (valueText x) = some (if x.isNaN then .nan else x) := by
  cases parts : x.number with
  | finite negative m e =>
    rw [ofText?_valueText (by rw [Double.isFinite, parts]),
      if_neg (by rw [Double.isNaN, parts]; exact Bool.false_ne_true)]
  | nan =>
    have token := tells_valueText x
    rw [Tells, parts] at token
    rw [token, if_pos (by rw [Double.isNaN, parts])]
    decide +kernel
  | infinite negative =>
    rw [Decimal.eq_infinite parts]
    cases negative <;> decide +kernel

/-- Whatever stands in front of it, the text of a value tells which value it
is. -/
theorem writeValue_faithful :
    (∀ x, ∃ text, (∀ out, writeValue out x = out ++ Text.utf8 text) ∧ Tells text x) ∧
      ∀ out x y, writeValue out x = writeValue out y ↔ x = y ∨ x.isNaN = true ∧ y.isNaN = true := by
  refine ⟨fun x => ⟨valueText x, fun out => writeValue_eq out x, tells_valueText x⟩,
    fun out x y => ?_⟩
  rw [writeValue_eq, writeValue_eq, List.append_cancel_left_eq, Text.utf8_injective.eq_iff]
  constructor
  · intro same
    have read := ofText?_valueText_all x
    rw [same, ofText?_valueText_all y, Option.some.injEq] at read
    split at read
    next yNaN =>
      split at read
      next xNaN => exact .inr ⟨xNaN, yNaN⟩
      next xNumber => exact absurd (read ▸ Double.isNaN_nan) xNumber
    next yNumber =>
      split at read
      next xNaN => exact absurd (read ▸ Double.isNaN_nan) yNumber
      next => exact .inl read.symm
  · rintro (rfl | ⟨xNaN, yNaN⟩)
    · rfl
    · have token (z : Double) (isNaN : z.isNaN = true) : valueText z = "Nan".toList := by
        have tells := tells_valueText z
        rw [Double.isNaN] at isNaN
        split at isNaN
        next parts => rwa [Tells, parts] at tells
        next => cases isNaN
      rw [token x xNaN, token y yNaN]

/-! ## No numeral is shorter -/

/-- The decimal rounds to the double, and none that does has fewer digits. -/
structure FewestDigits (d : Decimal) (x : Double) : Prop where
  nearest : x.Nearest (signed x.isNegative d.value)
  fewest : ∀ c : Decimal, x.Nearest (signed x.isNegative c.value) →
    digitCount d.significand ≤ digitCount c.significand

/-- A magnitude behind the sign of a double. -/
def signedText (x : Double) (magnitude : List Char) : List Char :=
  if x.isNegative then '-' :: magnitude else magnitude

section Shortest

variable {x : Double} {negative : Bool} {m : Nat} {e : Int}

theorem length_magnitudeText (d : Decimal) :
    (magnitudeText d).length = min d.positional.length d.scientific.length := by
  rw [magnitudeText]
  split <;> omega

theorem fewestDigits_shortest (parts : x.number = .finite negative m e) :
    FewestDigits (shortest double m e) x := by
  have sign := Decimal.isNegative_of_parts parts
  refine ⟨sign ▸ Decimal.nearest_shortest parts, fun c nearest => ?_⟩
  rw [sign] at nearest
  obtain ⟨-, ⟨rfl, -⟩ | canonical⟩ := Decimal.canonical_of_finite parts
  · rw [shortest, if_pos rfl]
    exact (by decide +kernel : digitCount 0 = 1) ▸ Decimal.digitCount_pos _
  · have inside := (Decimal.nearest_iff parts canonical.positive).mp nearest
    have positive := Decimal.significand_pos canonical.positive inside
    exact Decimal.shortest_fewest canonical positive inside

/-- A numeral of either form in the interval of a double is no shorter than the
layouts of the shortest decimal. -/
theorem magnitudeText_shortest (canonical : Decimal.Canonical double m e) (high : e ≤ 971)
    {text : List Char} {c : Decimal} (form : IsPlain text c ∨ IsScaled text c)
    (inside : (Interval.around double m e).Contains c.value) :
    (magnitudeText (shortest double m e)).length ≤ text.length := by
  have positive := Decimal.significand_pos canonical.positive inside
  rw [length_magnitudeText]
  cases form with
  | inl isPlain =>
    obtain @⟨whole, fraction, isWhole, digits⟩ := isPlain
    have run : IsRun (whole ++ fraction) :=
      ⟨by simp [isWhole.1], List.forall_mem_append.mpr ⟨isWhole.2, digits⟩⟩
    have count := digitCount_ofDigits_le run
    rw [length_pointed]
    refine Decimal.positional_shortest canonical high positive inside
      (List.length_pos_iff.mpr isWhole.1) rfl ?_
    rw [List.length_append] at count
    rw [Decimal.power]
    simp only
    omega
  | inr isScaled =>
    exact (min_le_right _ _).trans
      ((Decimal.scientific_shortest canonical high positive inside).trans
        (isScaled.length_le positive))

theorem length_signedText (x : Double) (magnitude : List Char) :
    (signedText x magnitude).length = magnitude.length + x.isNegative.toNat := by
  rw [signedText]
  cases x.isNegative <;> rfl

theorem magnitudeText_zero : magnitudeText ⟨0, 0⟩ = ['0'] := by decide +kernel

theorem length_valueText_le (parts : x.number = .finite negative m e) {text : List Char}
    (rounds : RoundsTo text x) : (valueText x).length ≤ text.length := by
  have sign := Decimal.isNegative_of_parts parts
  obtain ⟨c, ⟨magnitude, rfl, form⟩, nearest⟩ := rounds
  have shape : valueText x = signedText x (magnitudeText (shortest double m e)) := by
    rw [valueText_of_parts parts, signedText, sign]
  rw [← signedText, shape, length_signedText, length_signedText, Nat.add_le_add_iff_right]
  rw [sign] at nearest
  obtain ⟨high, ⟨rfl, -⟩ | canonical⟩ := Decimal.canonical_of_finite parts
  · obtain ⟨first, rest, rfl, -⟩ := head_magnitude form
    rw [shortest, if_pos rfl, magnitudeText_zero]
    exact Nat.le_add_left 1 _
  · exact magnitudeText_shortest canonical high form
      ((Decimal.nearest_iff parts canonical.positive).mp nearest)

theorem magnitudeText_bound (parts : x.number = .finite negative m e) :
    (magnitudeText (shortest double m e)).length ≤ 23 := by
  obtain ⟨high, ⟨rfl, -⟩ | canonical⟩ := Decimal.canonical_of_finite parts
  · rw [shortest, if_pos rfl, magnitudeText_zero]
    decide
  · rw [length_magnitudeText]
    exact (min_le_right _ _).trans (Decimal.scientific_bound canonical high)

/-- The text of a finite value has the least number of bytes among the numerals
that round to it, and at most twenty-four.  Between layouts of equal length of
the shortest decimal the positional one is taken. -/
theorem writeValue_shortest (finite : x.isFinite = true) :
    ∃ text, (∀ out, writeValue out x = out ++ Text.utf8 text) ∧
      (∀ other, RoundsTo other x → (Text.utf8 text).length ≤ (Text.utf8 other).length) ∧
      (∃ d, FewestDigits d x ∧ x.plain = signedText x d.positional ∧
        x.exponential = signedText x d.scientific) ∧
      (x.plain.length = x.exponential.length → text = x.plain) ∧
      (Text.utf8 text).length ≤ 24 := by
  obtain ⟨negative, m, e, parts⟩ := Double.parts_of_finite finite
  have sign := Decimal.isNegative_of_parts parts
  have signed (style : List Char) :
      (if negative then '-' :: style else style) = signedText x style := by rw [signedText, sign]
  have plain : x.plain = signedText x (shortest double m e).positional :=
    (Decimal.Text.write_finite Decimal.Text.plainStyle parts).trans (signed _)
  have exponential : x.exponential = signedText x (shortest double m e).scientific :=
    (Decimal.Text.write_finite Decimal.Text.exponentStyle parts).trans (signed _)
  have shape : valueText x = signedText x (magnitudeText (shortest double m e)) :=
    (valueText_of_parts parts).trans (signed _)
  have ascii : (Text.utf8 (valueText x)).length = (valueText x).length :=
    Text.length_utf8_of_ascii fun c member => (isNumeral_of_mem_valueText finite member).ascii
  refine ⟨valueText x, fun out => writeValue_eq out x, fun other rounds => ?_,
    ⟨_, fewestDigits_shortest parts, plain, exponential⟩, fun tie => ?_, ?_⟩
  · rw [ascii]
    exact (length_valueText_le parts rounds).trans (Text.length_le_utf8 other)
  · rw [plain, exponential, length_signedText, length_signedText] at tie
    rw [shape, plain, magnitudeText, if_neg (by omega)]
  · have bound := magnitudeText_bound parts
    have := Bool.toNat_le x.isNegative
    rw [ascii, shape, length_signedText]
    omega

/-- One hundred has two layouts of three characters. -/
theorem writeValue_hundred :
    (⟨0x4059000000000000⟩ : Double).isFinite = true ∧
      ∃ text, (∀ out, writeValue out ⟨0x4059000000000000⟩ = out ++ Text.utf8 text) ∧
        text = "100".toList := by
  have finite : (⟨0x4059000000000000⟩ : Double).isFinite = true := by decide
  obtain ⟨text, writes, -, -, tie, -⟩ := writeValue_shortest finite
  exact ⟨finite, text, writes, (tie (by decide +kernel)).trans (by decide +kernel)⟩

end Shortest

end GaugeExporter.Exposition
