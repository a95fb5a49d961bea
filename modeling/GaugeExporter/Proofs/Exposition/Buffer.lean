import GaugeExporter.Registry.Block

/-!
# Writing behind the content of a buffer

Every writer leaves the content of its buffer as it is and puts its own bytes
behind it.  The non-trivial one is `writeValue`, which writes two texts and cuts
one of them out again: `writeValue_eq` says that what stays is `valueText`.  It
rests on numerals being ASCII, so that the shorter text has the fewer bytes.
`writeBlock_pooled` says the same of the block of a metric, whichever buffer its
values go through; what counts is that a snapshot has a value for every series.
-/

namespace GaugeExporter

open Binary (Double Number)

/-! ## The characters of a numeral -/

namespace Decimal

/-- A character of the text of a finite number. -/
def IsNumeral (c : Char) : Prop := c.isDigit = true ∨ c = '-' ∨ c = '.' ∨ c = 'e'

theorem IsNumeral.ascii {c : Char} (numeral : IsNumeral c) : c.toNat < 0x80 := by
  obtain digit | rfl | rfl | rfl := numeral
  · exact Nat.lt_of_le_of_lt (Char.isDigit_iff_toNat.mp digit).2 (by decide)
  · decide
  · decide
  · decide

theorem isNumeral_of_mem_digits {n : Nat} {c : Char} (member : c ∈ digits n) : IsNumeral c :=
  .inl (isDigit_of_mem_digits member)

theorem isNumeral_of_mem_integer {n : Int} {c : Char} (member : c ∈ integer n) :
    IsNumeral c := by
  unfold integer at member
  split at member
  · cases List.mem_cons.mp member with
    | inl minus => exact .inr (.inl minus)
    | inr inDigits => exact isNumeral_of_mem_digits inDigits
  · exact isNumeral_of_mem_digits member

theorem isNumeral_of_mem_replicate_zero {n : Nat} {c : Char}
    (member : c ∈ List.replicate n '0') : IsNumeral c := by
  obtain ⟨_, rfl⟩ := List.mem_replicate.mp member
  exact .inl rfl

theorem isNumeral_of_mem_positional {d : Decimal} {c : Char} (member : c ∈ d.positional) :
    IsNumeral c := by
  simp only [positional] at member
  split at member
  · split at member
    · obtain rfl := List.mem_singleton.mp member
      exact .inl rfl
    · cases List.mem_append.mp member with
      | inl inDigits => exact isNumeral_of_mem_digits inDigits
      | inr inZeros => exact isNumeral_of_mem_replicate_zero inZeros
  · split at member
    · cases List.mem_append.mp member with
      | inl inWhole => exact isNumeral_of_mem_digits (List.mem_of_mem_take inWhole)
      | inr inRest =>
        cases List.mem_cons.mp inRest with
        | inl point => exact .inr (.inr (.inl point))
        | inr inFraction => exact isNumeral_of_mem_digits (List.mem_of_mem_drop inFraction)
    · simp only [List.cons_append, List.mem_cons, List.mem_append] at member
      obtain rfl | point | inZeros | inDigits := member
      · exact .inl rfl
      · exact .inr (.inr (.inl point))
      · exact isNumeral_of_mem_replicate_zero inZeros
      · exact isNumeral_of_mem_digits inDigits

/-- The digits with a point behind the first of them. -/
theorem mem_mantissa {text : List Char} {c : Char}
    (member : c ∈ match text with
      | first :: second :: rest => first :: '.' :: second :: rest
      | short => short) : c = '.' ∨ c ∈ text := by
  split at member
  · simp only [List.mem_cons] at member ⊢
    rcases member with h | h | h | h <;> simp [h]
  · exact .inr member

theorem isNumeral_of_mem_scientific {d : Decimal} {c : Char} (member : c ∈ d.scientific) :
    IsNumeral c := by
  simp only [scientific] at member
  cases List.mem_append.mp member with
  | inl inMantissa =>
    cases mem_mantissa inMantissa with
    | inl point => exact .inr (.inr (.inl point))
    | inr inDigits => exact isNumeral_of_mem_digits inDigits
  | inr inPower =>
    cases List.mem_cons.mp inPower with
    | inl letter => exact .inr (.inr (.inr letter))
    | inr inPower => exact isNumeral_of_mem_integer inPower

end Decimal

theorem Text.length_utf8_of_ascii {text : List Char} (ascii : ∀ c ∈ text, c.toNat < 0x80) :
    (utf8 text).length = text.length := by
  induction text with
  | nil => rfl
  | cons c rest ih =>
    have small : c.utf8Size = 1 := by
      have := ascii c List.mem_cons_self
      rw [Char.utf8Size_eq_one_iff, UInt32.le_iff_toNat_le]
      exact Nat.le_of_lt_succ this
    rw [utf8_cons, List.length_append, String.length_utf8EncodeChar, small,
      ih fun c member => ascii c (List.mem_cons_of_mem _ member), List.length_cons, Nat.add_comm]

theorem Text.length_le_utf8 (text : List Char) : text.length ≤ (utf8 text).length := by
  induction text with
  | nil => exact Nat.le_refl 0
  | cons c rest ih =>
    have := Char.utf8Size_pos c
    rw [utf8_cons, List.length_append, String.length_utf8EncodeChar, List.length_cons]
    omega

/-! ## Values -/

namespace Exposition

/-- Of two texts behind the content the longer one is cut out, the second one
if they are equally long. -/
theorem cut_longer (out plain scientific : Bytes) :
    (if (out ++ plain ++ scientific).length - (out ++ plain).length
        < (out ++ plain).length - out.length then
      (out ++ plain ++ scientific).take out.length
        ++ (out ++ plain ++ scientific).drop (out ++ plain).length
    else (out ++ plain ++ scientific).take (out ++ plain).length)
      = out ++ if scientific.length < plain.length then scientific else plain := by
  have lengths : (out ++ plain ++ scientific).length - (out ++ plain).length = scientific.length ∧
      (out ++ plain).length - out.length = plain.length := by
    simp only [List.length_append]
    omega
  rw [lengths.1, lengths.2, List.drop_left, List.take_left, List.append_assoc out, List.take_left]
  split <;> rfl

theorem length_signed {style : Decimal → List Char} {d : Decimal} (negative : Bool)
    (numeral : ∀ c ∈ style d, Decimal.IsNumeral c) :
    (Text.utf8 (if negative then '-' :: style d else style d)).length
      = (style d).length + negative.toNat := by
  have sign : (String.utf8EncodeChar '-').length = 1 := by decide
  have ascii : ∀ c ∈ style d, c.toNat < 0x80 := fun c member => (numeral c member).ascii
  cases negative with
  | false => exact Text.length_utf8_of_ascii ascii
  | true =>
    rw [if_pos rfl, Text.utf8_cons, List.length_append, sign, Text.length_utf8_of_ascii ascii,
      Nat.add_comm]
    rfl

/-- What is written for a value is its text: the longer form goes again. -/
theorem writeValue_eq (out : Bytes) (x : Double) :
    writeValue out x = out ++ Text.utf8 (valueText x) := by
  unfold writeValue valueText
  have shape : x.number = Binary.double.classify x.bits.toNat := rfl
  cases classified : x.number with
  | nan =>
    rw [Decimal.Text.write, ← shape, classified]
    rfl
  | infinite negative =>
    rw [Decimal.Text.write, ← shape, classified]
    cases negative <;> rfl
  | finite negative significand exponent =>
    rw [shape] at classified
    simp only [Double.plain, Double.exponential, Decimal.Text.write_finite _ classified]
    generalize Decimal.shortest Binary.double significand exponent = d
    rw [cut_longer, Decimal.Text.exponentStyle, Decimal.Text.plainStyle, valueStyle,
      length_signed negative fun _ => Decimal.isNumeral_of_mem_scientific,
      length_signed negative fun _ => Decimal.isNumeral_of_mem_positional]
    simp only [magnitudeText, Nat.add_lt_add_iff_right]
    congr 1
    split <;> rfl

theorem valueBytes_eq (x : Double) : valueBytes x = Text.utf8 (valueText x) := by
  rw [valueBytes, writeValue_eq, List.nil_append]

/-- The line of a sample goes behind the content of the buffer. -/
theorem writeSample_eq (timestamp : Int) (out : Bytes) (name : String) (value : Double)
    (tags : List Tag) :
    writeSample timestamp out name value tags = out ++ sampleLine timestamp name value tags := by
  simp only [writeSample, sampleLine, writeValue_eq, valueBytes_eq, List.append_assoc,
    List.cons_append, List.nil_append]

end Exposition

/-! ## Blocks -/

/-- The samples of a snapshot: the live series with the values at their
positions, as far as these are finite. -/
def Metric.finiteSamples (metric : Metric) (values : List Double) : List (SeriesId × Double) :=
  (metric.live.zip values).filter fun sample => sample.2.isFinite

namespace Registry

variable (r : Registry) (metric : Metric) (timestamp : Int)

/-- The line of a series with a value. -/
def lineOf (sample : SeriesId × Double) : Bytes :=
  Exposition.sampleLine timestamp metric.name sample.2 (r.tags sample.1)

/-- What a snapshot gives behind the content of the buffer, and the number of
its lines: nothing without a finite value, otherwise a header and the line of
every finite sample. -/
def encodePlainly (out : Bytes) (values : List Double) : Bytes × Nat :=
  match metric.finiteSamples values with
  | [] => (out, 0)
  | samples =>
    (out ++ Exposition.typeHeader metric.name ++ samples.flatMap (r.lineOf metric timestamp),
      samples.length)

/-- The samples leave the lines of the finite ones among them, in their order. -/
theorem foldl_addSample (samples : List (SeriesId × Double)) (out : Bytes) (count : Nat) :
    samples.foldl (r.addSample metric timestamp) (out, count)
      = (out ++ (samples.filter fun sample => sample.2.isFinite).flatMap
          (r.lineOf metric timestamp),
        count + (samples.filter fun sample => sample.2.isFinite).length) := by
  induction samples generalizing out count with
  | nil => simp
  | cons sample rest ih =>
    rw [List.foldl_cons, addSample]
    cases finite : sample.2.isFinite with
    | false => simp [finite, ih]
    | true =>
      rw [if_pos rfl, Exposition.writeSample_eq, ih, List.filter_cons, if_pos finite,
        List.flatMap_cons, List.length_cons, List.append_assoc, Nat.add_assoc, Nat.add_comm 1]
      rfl

/-- A snapshot with a value for every live series: a header is written exactly
if a line is. -/
theorem encodeBlock_snapshot (out : Bytes) {values : List Double}
    (each : values.length = metric.live.length) :
    r.encodeBlock metric timestamp out values
      = r.encodePlainly metric timestamp out values := by
  have someFinite : values.any Double.isFinite = !(metric.finiteSamples values).isEmpty := by
    have second : (metric.live.zip values).map Prod.snd = values :=
      List.map_snd_zip (Nat.le_of_eq each)
    rw [Metric.finiteSamples, ← congrArg (List.any · Double.isFinite) second, List.any_map,
      Bool.eq_iff_iff]
    simp [List.filter_eq_nil_iff]
  rw [encodeBlock, someFinite, foldl_addSample, ← Metric.finiteSamples, encodePlainly]
  cases metric.finiteSamples values with
  | nil => rfl
  | cons sample rest =>
    simp only [List.isEmpty_cons, Bool.not_false, if_true, Nat.zero_add]

/-- The samples of the current values are the finite series. -/
theorem finiteSamples_current :
    metric.finiteSamples (metric.live.map r.value)
      = (r.finiteSeries metric).map fun s => (s, r.value s) := by
  have pairs : metric.live.zip (metric.live.map r.value)
      = metric.live.map fun s => (s, r.value s) := List.map_prod_left_eq_zip.symm
  rw [Metric.finiteSamples, pairs, List.filter_map]
  rfl

theorem encodePlainly_current (out : Bytes) :
    r.encodePlainly metric timestamp out (metric.live.map r.value)
      = (out ++ r.plainBlock metric timestamp, (r.finiteSeries metric).length) := by
  rw [encodePlainly, finiteSamples_current, plainBlock]
  cases r.finiteSeries metric with
  | nil => simp
  | cons s rest =>
    simp only [List.map_cons, List.flatMap_cons, List.flatMap_map, List.length_cons,
      List.length_map, List.append_assoc]
    rfl

@[simp] theorem refill_eq (pool values : List Double) : refill pool values = values := rfl

/-- The block of a metric goes behind the content of the buffer, whether its
values go through a buffer of their own or through the pooled one, which holds
nothing else then. -/
theorem writeBlock_pooled (out : Bytes) (pool : List Double) :
    r.writeBlock metric timestamp out pool
      = (out ++ r.plainBlock metric timestamp, (r.finiteSeries metric).length,
        if metric.live.length ≤ inlineLimit then pool else metric.live.map r.value) := by
  have encoded := r.encodeBlock_snapshot metric timestamp out
    (List.length_map r.value : (metric.live.map r.value).length = metric.live.length)
  rw [encodePlainly_current] at encoded
  unfold writeBlock
  by_cases short : metric.live.length ≤ inlineLimit
  · simp only [if_pos short, encoded]
  · simp only [if_neg short, refill_eq, encoded]

theorem writeBlock_eq (out : Bytes) (pool : List Double) :
    ∃ pool', r.writeBlock metric timestamp out pool
      = (out ++ r.plainBlock metric timestamp, (r.finiteSeries metric).length, pool') :=
  ⟨_, r.writeBlock_pooled metric timestamp out pool⟩

/-- The block of a metric that is given by its number. -/
def blockAt (m : MetricId) : Bytes := r.plainBlock (r.metrics[m]?.getD default) timestamp

/-- The blocks of the metrics with numbers below a bound. -/
def blocks (count : Nat) : Bytes := (List.range count).flatMap (r.blockAt timestamp)

/-- The document of a registry: the blocks of all metrics and the closing line. -/
def document : Bytes := r.blocks timestamp r.metricCount ++ Exposition.documentEnd

end Registry

end GaugeExporter
