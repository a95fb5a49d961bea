import GaugeExporter.Proofs.Decimal.RoundTrip
import GaugeExporter.Proofs.Folds
import GaugeExporter.Toml.DateTime.Reader
import Mathlib.Data.List.TakeWhile

/-!
# Date-times come back

A date-time that was read keeps to the calendar and the clock (`read_valid`), and
one that does is read back from its text (`read_text`).  Equality holds to the
nanosecond: the places of a second that the text leaves off are zeros.
-/

namespace GaugeExporter.Toml

/-! ## Calendar and clock -/

structure Date.Valid (d : Date) : Prop where
  year : d.year ≤ 9999
  month : 1 ≤ d.month ∧ d.month ≤ 12
  day : 1 ≤ d.day ∧ d.day ≤ daysIn d.year d.month

structure Time.Valid (t : Time) : Prop where
  hour : t.hour ≤ 23
  minute : t.minute ≤ 59
  second : t.second ≤ 60
  nanosecond : t.nanosecond < 10 ^ 9

def Offset.Valid : Offset → Prop
  | .zulu => True
  | .ahead minutes => minutes.natAbs < 24 * 60

def DateTime.Valid : DateTime → Prop
  | .date d => d.Valid
  | .time t => t.Valid
  | .civil d t => d.Valid ∧ t.Valid
  | .offset d t o => d.Valid ∧ t.Valid ∧ o.Valid

/-! ## Padded numbers -/

theorem length_padded {width n : Nat} (positive : 0 < width) (small : n < 10 ^ width) :
    (padded width n).length = width := by
  have fits := Decimal.digitCount_le positive small
  rw [← Decimal.length_digits] at fits
  rw [padded, List.length_append, List.length_replicate]
  omega

theorem ofDigits_padded (width n : Nat) : Decimal.ofDigits (padded width n) = n := by
  rw [padded, Decimal.ofDigits_append, Decimal.ofDigits_zeros, Decimal.ofDigits_digits,
    Nat.zero_mul, Nat.zero_add]

theorem padded_allDigits (width n : Nat) : ∀ c ∈ padded width n, c.isDigit = true := by
  intro c member
  rw [padded, List.mem_append] at member
  rcases member with zero | digit
  · rw [List.eq_of_mem_replicate zero]
    rfl
  · exact Decimal.isDigit_of_mem_digits digit

theorem padded_ne_nil (width n : Nat) : padded width n ≠ [] := fun none =>
  Decimal.digits_ne_nil n (List.append_eq_nil_iff.mp none).2

namespace DateTime

open Decimal (EndsDigits)
open GaugeExporter.Text (stops_nil stops_cons takeWhile_run dropWhile_run)

/-! ## Numbers and marks -/

theorem digitRun_append {run tail : List Char} (nonempty : run ≠ [])
    (all : ∀ c ∈ run, c.isDigit = true) (ends : EndsDigits tail) (piece : Piece)
    (expected : String) : digitRun piece expected (run ++ tail) = .ok (run, tail) := by
  simp only [digitRun, takeWhile_run all ends, dropWhile_run all ends]

theorem digitRun_padded (width n : Nat) {tail : List Char} (ends : EndsDigits tail) (piece : Piece)
    (expected : String) :
    digitRun piece expected (padded width n ++ tail) = .ok (padded width n, tail) :=
  digitRun_append (padded_ne_nil width n) (padded_allDigits width n) ends piece expected

theorem mark_cons (c : Char) (piece : Piece) (expected : String) (rest : List Char) :
    mark c piece expected (c :: rest) = .ok rest := if_pos rfl

theorem ofWidth_padded {width n : Nat} (positive : 0 < width) (small : n < 10 ^ width)
    (piece : Piece) (expected : String) :
    ofWidth width piece expected (padded width n) = .ok n := by
  rw [ofWidth, if_pos (length_padded positive small), ofDigits_padded]

theorem bounded_of_le {low high n : Nat} (above : low ≤ n) (below : n ≤ high) (piece : Piece)
    (expected : String) : bounded low high piece expected n = .ok () := if_pos ⟨above, below⟩

/-! ## Pieces -/

theorem readDate_text {d : Date} (valid : d.Valid) {rest : List Char} (ends : EndsDigits rest) :
    readDate (padded 4 d.year) (padded 2 d.month ++ '-' :: padded 2 d.day ++ rest)
      = .ok (d, rest) := by
  obtain ⟨year, month, day⟩ := valid
  have days : d.day ≤ 31 := by
    refine Nat.le_trans day.2 ?_
    rw [daysIn]
    split
    · split <;> decide
    · split <;> decide
  rw [readDate, List.append_assoc, List.cons_append,
    digitRun_padded 2 d.month (stops_cons rfl _)]
  simp only [bind, Except.bind, mark_cons, digitRun_padded 2 d.day ends]
  rw [ofWidth_padded (by decide) (by omega), ofWidth_padded (by decide) (by omega),
    ofWidth_padded (by decide) (by omega)]
  simp only [bounded_of_le month.1 month.2, bounded_of_le day.1 day.2]
  rfl

theorem trailing_zeros (cs : List Char) :
    ∃ count, cs = (cs.reverse.dropWhile (· == '0')).reverse ++ List.replicate count '0' := by
  have zeros : (cs.reverse.takeWhile (· == '0')).reverse = List.replicate _ '0' :=
    List.eq_replicate_length.mpr fun c member => by
      simpa using List.mem_takeWhile_imp (List.mem_reverse.mp member)
  refine ⟨(cs.reverse.takeWhile (· == '0')).reverse.length, ?_⟩
  rw [← zeros, ← List.reverse_append, List.takeWhile_append_dropWhile, List.reverse_reverse]

/-- The places without trailing zeros still make the number, padded to nine. -/
theorem nanoseconds_places {n : Nat} (small : n < 10 ^ 9) :
    nanoseconds ((padded 9 n).reverse.dropWhile (· == '0')).reverse = n := by
  obtain ⟨count, split⟩ := trailing_zeros (padded 9 n)
  have length := length_padded (by decide) small
  have number := ofDigits_padded 9 n
  generalize ((padded 9 n).reverse.dropWhile (· == '0')).reverse = places at split ⊢
  rw [split] at length number
  rw [List.length_append, List.length_replicate] at length
  rw [Decimal.ofDigits_append, Decimal.ofDigits_zeros, List.length_replicate,
    Nat.add_zero] at number
  have rest : 9 - places.length = count := by omega
  rw [nanoseconds, List.take_of_length_le (by omega), rest]
  exact number

theorem readFraction_text {n : Nat} (small : n < 10 ^ 9) {rest : List Char}
    (stops : ∀ c, rest.head? = some c → c.isDigit = false ∧ c ≠ '.') :
    readFraction (fractionText n ++ rest) = .ok (n, rest) := by
  rw [fractionText]
  split
  next zero =>
    rw [List.nil_append, readFraction.eq_2, zero]
    rintro _ rfl
    exact (stops _ rfl).2 rfl
  next nonzero =>
    have places := nanoseconds_places small
    have nonempty : ((padded 9 n).reverse.dropWhile (· == '0')).reverse ≠ [] := by
      intro none
      rw [none] at places
      exact nonzero places.symm
    have all : ∀ c ∈ ((padded 9 n).reverse.dropWhile (· == '0')).reverse, c.isDigit = true := by
      intro c member
      refine padded_allDigits 9 n c (List.mem_reverse.mp ?_)
      exact (List.dropWhile_sublist _).subset (List.mem_reverse.mp member)
    rw [List.cons_append, readFraction, digitRun_append nonempty all fun c head => (stops c head).1]
    simp only [bind, Except.bind, places]
    rfl

theorem readTime_text {t : Time} (valid : t.Valid) {rest : List Char}
    (stops : ∀ c, rest.head? = some c → c.isDigit = false ∧ c ≠ '.') :
    readTime (t.text ++ rest) = .ok (t, rest) := by
  obtain ⟨hour, minute, second, nanosecond⟩ := valid
  have ends : EndsDigits (fractionText t.nanosecond ++ rest) := by
    rw [fractionText]
    split
    · exact fun c head => (stops c head).1
    · exact stops_cons rfl _
  have shape : t.text ++ rest = padded 2 t.hour ++ ':' :: (padded 2 t.minute ++
      ':' :: (padded 2 t.second ++ (fractionText t.nanosecond ++ rest))) := by
    simp only [Time.text, List.append_assoc, List.cons_append]
  have colon : ∀ tail, EndsDigits (':' :: tail) := stops_cons rfl
  rw [readTime, shape, digitRun_padded 2 t.hour (colon _)]
  simp only [bind, Except.bind, mark_cons, digitRun_padded 2 t.minute (colon _),
    digitRun_padded 2 t.second ends, readFraction_text nanosecond stops]
  rw [ofWidth_padded (by decide) (by omega), ofWidth_padded (by decide) (by omega),
    ofWidth_padded (by decide) (by omega)]
  simp only [bounded_of_le (Nat.zero_le _) hour, bounded_of_le (Nat.zero_le _) minute,
    bounded_of_le (Nat.zero_le _) second]
  rfl

theorem readDistance_text {minutes : Nat} (small : minutes < 24 * 60) {rest : List Char}
    (ends : EndsDigits rest) :
    readDistance (padded 2 (minutes / 60) ++ ':' :: padded 2 (minutes % 60) ++ rest)
      = .ok (minutes, rest) := by
  rw [readDistance, List.append_assoc, List.cons_append,
    digitRun_padded 2 _ (stops_cons rfl _)]
  simp only [bind, Except.bind, mark_cons, digitRun_padded 2 _ ends]
  have hours : minutes / 60 ≤ 23 := by omega
  have extra : minutes % 60 ≤ 59 := by omega
  rw [ofWidth_padded (by decide) (by omega), ofWidth_padded (by decide) (by omega)]
  simp only [bounded_of_le (Nat.zero_le _) hours, bounded_of_le (Nat.zero_le _) extra]
  exact congrArg (fun n => Except.ok (n, rest)) (Nat.div_add_mod minutes 60)

theorem readOffset_text {o : Offset} (valid : o.Valid) : readOffset o.text = .ok (some o, []) := by
  cases o with
  | zulu => rfl
  | ahead minutes =>
    have read := readDistance_text valid (stops_nil Char.isDigit)
    rw [List.append_nil] at read
    rw [Offset.text]
    split
    next behind =>
      rw [List.cons_append, readOffset, read]
      have same : -(minutes.natAbs : Int) = minutes := by omega
      simp only [bind, Except.bind, same]
      rfl
    next ahead =>
      rw [List.cons_append, readOffset, read]
      have same : (minutes.natAbs : Int) = minutes := by omega
      simp only [bind, Except.bind, same]
      rfl

/-! ## Texts of date-times -/

theorem withTime_text {d : Date} {t : Time} (valid : t.Valid) :
    withTime d t.text = .ok (.civil d t) := by
  have read := @readTime_text t valid [] nofun
  rw [List.append_nil] at read
  simp only [withTime, read, bind, Except.bind, readOffset, finish]

theorem withTime_offset {d : Date} {t : Time} {o : Offset} (validTime : t.Valid)
    (validOffset : o.Valid) : withTime d (t.text ++ o.text) = .ok (.offset d t o) := by
  have stops : ∀ c, o.text.head? = some c → c.isDigit = false ∧ c ≠ '.' := by
    cases o with
    | zulu => rintro _ ⟨⟩; decide
    | ahead minutes =>
      rw [Offset.text]
      split <;> rintro _ ⟨⟩ <;> decide
  simp only [withTime, readTime_text validTime stops, readOffset_text validOffset, bind,
    Except.bind, finish]

theorem read_dated {d : Date} (valid : d.Valid) {rest : List Char} (ends : EndsDigits rest) :
    read (d.text ++ rest) = (match rest with
      | [] => .ok (.date d)
      | c :: rest =>
        if c = 'T' ∨ c = 't' ∨ c = ' ' then withTime d rest
        else wanted .junction "`T` between date and time") := by
  have shape : d.text ++ rest = padded 4 d.year ++ '-' :: (padded 2 d.month ++
      '-' :: padded 2 d.day ++ rest) := by
    simp only [Date.text, List.append_assoc, List.cons_append]
  rw [shape, read, digitRun_padded 4 _ (stops_cons rfl _)]
  simp only [bind, Except.bind, readDate_text valid ends]
  cases rest <;> rfl

/-- A date-time within the calendar and the clock is read back from its text. -/
theorem read_text {d : DateTime} (valid : d.Valid) : read d.text = .ok d := by
  cases d with
  | date d =>
    have read := read_dated valid (stops_nil Char.isDigit)
    rwa [List.append_nil] at read
  | time t =>
    have timed := @readTime_text t valid [] nofun
    rw [List.append_nil] at timed
    have first : digitRun .whole "year or hour" t.text = .ok (padded 2 t.hour, ':' :: (padded 2
        t.minute ++ ':' :: (padded 2 t.second ++ fractionText t.nanosecond))) := by
      simp only [Time.text, List.append_assoc, List.cons_append]
      exact digitRun_padded 2 t.hour (stops_cons rfl _) _ _
    simp only [text, read, first, bind, Except.bind, timed, finish]
  | civil d t =>
    obtain ⟨validDate, validTime⟩ := valid
    rw [text, read_dated validDate (stops_cons rfl _)]
    exact (if_pos (.inl rfl)).trans (withTime_text validTime)
  | offset d t o =>
    obtain ⟨validDate, validTime, validOffset⟩ := valid
    rw [text, List.append_assoc, List.cons_append, read_dated validDate (stops_cons rfl _)]
    exact (if_pos (.inl rfl)).trans (withTime_offset validTime validOffset)

/-! ## What was read -/

theorem allDigits_of_digitRun {piece : Piece} {expected : String} {cs run rest : List Char}
    (read : digitRun piece expected cs = .ok (run, rest)) : ∀ c ∈ run, c.isDigit = true := by
  rw [digitRun] at read
  split at read
  · cases read
  · cases read
    exact fun c member => List.mem_takeWhile_imp member

theorem le_of_bounded {low high n : Nat} {piece : Piece} {expected : String} {u : Unit}
    (read : bounded low high piece expected n = .ok u) : low ≤ n ∧ n ≤ high := by
  rw [bounded] at read
  split at read
  next within => exact within
  · cases read

theorem lt_of_ofWidth {width n : Nat} {piece : Piece} {expected : String} {run : List Char}
    (all : ∀ c ∈ run, c.isDigit = true) (read : ofWidth width piece expected run = .ok n) :
    n < 10 ^ width := by
  rw [ofWidth] at read
  split at read
  next length =>
    cases read
    exact length ▸ Decimal.ofDigits_lt all
  · cases read

theorem nanoseconds_lt {places : List Char} (all : ∀ c ∈ places, c.isDigit = true) :
    nanoseconds places < 10 ^ 9 := by
  have kept := @Decimal.ofDigits_lt (places.take 9) fun c member =>
    all c (List.mem_of_mem_take member)
  have length : (places.take 9).length ≤ 9 := List.length_take_le _ _
  have power : 10 ^ 9 = 10 ^ (places.take 9).length * 10 ^ (9 - (places.take 9).length) := by
    rw [← pow_add, Nat.add_sub_cancel' length]
  rw [nanoseconds, power]
  exact Nat.mul_lt_mul_of_pos_right kept (Nat.pow_pos (by decide))

theorem readDate_valid {year cs rest : List Char} {d : Date}
    (all : ∀ c ∈ year, c.isDigit = true) (read : readDate year cs = .ok (d, rest)) : d.Valid := by
  rw [readDate] at read
  obtain ⟨⟨month, cs⟩, -, read⟩ := of_bind_ok read
  obtain ⟨_, -, read⟩ := of_bind_ok read
  obtain ⟨⟨day, _⟩, -, read⟩ := of_bind_ok read
  obtain ⟨y, years, read⟩ := of_bind_ok read
  obtain ⟨m, -, read⟩ := of_bind_ok read
  obtain ⟨dd, -, read⟩ := of_bind_ok read
  obtain ⟨_, months, read⟩ := of_bind_ok read
  obtain ⟨_, days, read⟩ := of_bind_ok read
  cases read
  exact ⟨Nat.le_of_lt_succ (lt_of_ofWidth all years), le_of_bounded months, le_of_bounded days⟩

theorem readFraction_lt {cs rest : List Char} {n : Nat} (read : readFraction cs = .ok (n, rest)) :
    n < 10 ^ 9 := by
  unfold readFraction at read
  split at read
  · obtain ⟨⟨places, _⟩, run, read⟩ := of_bind_ok read
    cases read
    exact nanoseconds_lt (allDigits_of_digitRun run)
  · cases read
    decide

theorem readTime_valid {cs rest : List Char} {t : Time} (read : readTime cs = .ok (t, rest)) :
    t.Valid := by
  rw [readTime] at read
  obtain ⟨_, -, read⟩ := of_bind_ok read
  obtain ⟨_, -, read⟩ := of_bind_ok read
  obtain ⟨_, -, read⟩ := of_bind_ok read
  obtain ⟨_, -, read⟩ := of_bind_ok read
  obtain ⟨_, -, read⟩ := of_bind_ok read
  obtain ⟨⟨nanosecond, _⟩, fraction, read⟩ := of_bind_ok read
  obtain ⟨hour, -, read⟩ := of_bind_ok read
  obtain ⟨minute, -, read⟩ := of_bind_ok read
  obtain ⟨second, -, read⟩ := of_bind_ok read
  obtain ⟨_, hours, read⟩ := of_bind_ok read
  obtain ⟨_, minutes, read⟩ := of_bind_ok read
  obtain ⟨_, seconds, read⟩ := of_bind_ok read
  cases read
  exact ⟨(le_of_bounded hours).2, (le_of_bounded minutes).2, (le_of_bounded seconds).2,
    readFraction_lt fraction⟩

theorem readDistance_lt {cs rest : List Char} {n : Nat} (read : readDistance cs = .ok (n, rest)) :
    n < 24 * 60 := by
  rw [readDistance] at read
  obtain ⟨_, -, read⟩ := of_bind_ok read
  obtain ⟨_, -, read⟩ := of_bind_ok read
  obtain ⟨_, -, read⟩ := of_bind_ok read
  obtain ⟨hours, -, read⟩ := of_bind_ok read
  obtain ⟨minutes, -, read⟩ := of_bind_ok read
  obtain ⟨_, few, read⟩ := of_bind_ok read
  obtain ⟨_, below, read⟩ := of_bind_ok read
  cases read
  have := (le_of_bounded few).2
  have := (le_of_bounded below).2
  omega

theorem readOffset_valid {cs rest : List Char} {o : Offset}
    (read : readOffset cs = .ok (some o, rest)) : o.Valid := by
  unfold readOffset at read
  split at read
  · cases read
  · cases read
    trivial
  · cases read
    trivial
  · obtain ⟨⟨minutes, _⟩, distance, read⟩ := of_bind_ok read
    cases read
    exact readDistance_lt distance
  · obtain ⟨⟨minutes, _⟩, distance, read⟩ := of_bind_ok read
    cases read
    rw [Offset.Valid, Int.natAbs_neg]
    exact readDistance_lt distance
  · cases read

theorem eq_of_finish {α : Type} {a b : α} {cs : List Char} (read : finish a cs = .ok b) :
    a = b := by
  unfold finish at read
  split at read
  · cases read
    rfl
  · cases read

theorem withTime_valid {d : Date} (valid : d.Valid) {cs : List Char} {dt : DateTime}
    (read : withTime d cs = .ok dt) : dt.Valid := by
  rw [withTime] at read
  obtain ⟨⟨t, cs⟩, timed, read⟩ := of_bind_ok read
  obtain ⟨⟨o, cs⟩, displaced, read⟩ := of_bind_ok read
  cases o with
  | some o =>
    rw [← eq_of_finish read]
    exact ⟨valid, readTime_valid timed, readOffset_valid displaced⟩
  | none =>
    rw [← eq_of_finish read]
    exact ⟨valid, readTime_valid timed⟩

/-- A date-time that was read keeps to the calendar and the clock. -/
theorem read_valid {cs : List Char} {dt : DateTime} (done : read cs = .ok dt) : dt.Valid := by
  rw [read] at done
  obtain ⟨⟨first, rest⟩, run, done⟩ := of_bind_ok done
  simp only at done
  split at done
  · obtain ⟨⟨d, rest⟩, dated, done⟩ := of_bind_ok done
    have valid := readDate_valid (allDigits_of_digitRun run) dated
    simp only at done
    split at done
    · cases done
      exact valid
    · split at done
      · exact withTime_valid valid done
      · cases done
  · obtain ⟨⟨t, rest⟩, timed, done⟩ := of_bind_ok done
    rw [← eq_of_finish done]
    exact readTime_valid timed
  · cases done

end DateTime

end GaugeExporter.Toml
