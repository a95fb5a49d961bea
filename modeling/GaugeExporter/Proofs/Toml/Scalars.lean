import GaugeExporter.Proofs.Toml.DateTimes
import GaugeExporter.Proofs.Toml.Keys
import GaugeExporter.Proofs.Toml.Numbers

/-!
# Scalars come back

`Follows` is what the writer puts behind a value.  In front of that every scalar
is read back from its text.  A date is the case to look at: the
blank behind it could lead over to a time.
-/

namespace GaugeExporter.Toml

open Decimal (sign sign_write digits_allDigits digits_ne_nil EndsDigits)
open Binary (Double double)
open GaugeExporter.Text (Stops stops_nil stops_cons takeWhile_run dropWhile_run)

/-! ## What follows a value -/

/-- What the writer puts behind a value. -/
inductive Follows : List Char → Prop
  | comma (rest : List Char) : Follows (',' :: rest)
  | bracket (rest : List Char) : Follows (']' :: rest)
  | feed (rest : List Char) : Follows ('\n' :: rest)
  | brace (rest : List Char) : Follows (' ' :: '}' :: rest)

namespace Follows

variable {rest : List Char}

theorem stops (follows : Follows rest) : Stops isScalarChar rest := by
  cases follows <;> exact stops_cons rfl _

theorem noQuote (follows : Follows rest) :
    rest.head? ≠ some '"' ∧ rest.head? ≠ some '\'' := by
  cases follows <;> exact ⟨by simp, by simp⟩

theorem noTime (follows : Follows rest) {after : List Char} (blank : rest = ' ' :: after) :
    Stops isScalarChar after := by
  cases follows with
  | brace => cases blank; exact stops_cons rfl _
  | _ => cases blank

end Follows

/-! ## Words -/

theorem isScalarChar_of_digit {c : Char} (digit : c.isDigit = true) : isScalarChar c = true := by
  rw [isScalarChar, Char.isAlphanum, digit]
  simp only [Bool.or_true, Bool.true_or]

theorem ofText?_of_head {c : Char} (other : c.isDigit = false) (rest : List Char) :
    DateTime.ofText? (c :: rest) = none := by
  have empty : (c :: rest).takeWhile Char.isDigit = [] := by
    rw [List.takeWhile_cons_of_neg (by rw [other]; exact Bool.false_ne_true)]
  rw [DateTime.ofText?, DateTime.read, DateTime.digitRun, empty]
  rfl

theorem ofText?_of_run {run rest : List Char} (nonempty : run ≠ [])
    (all : ∀ c ∈ run, c.isDigit = true)
    (ends : ∀ c, rest.head? = some c → c.isDigit = false ∧ c ≠ '-' ∧ c ≠ ':') :
    DateTime.ofText? (run ++ rest) = none := by
  rw [DateTime.ofText?, DateTime.read,
    DateTime.digitRun_append nonempty all fun c head => (ends c head).1]
  simp only [bind, Except.bind]
  split
  · exact absurd rfl (ends _ rfl).2.1
  · exact absurd rfl (ends _ rfl).2.2
  · rfl

theorem word?_other {cs : List Char} (notTrue : cs ≠ "true".toList)
    (notFalse : cs ≠ "false".toList) :
    word? cs = (match integer? cs, float? cs, DateTime.ofText? cs with
      | some n, _, _ => some (.integer n)
      | none, some x, _ => some (.float x)
      | none, none, some d => some (.dateTime d)
      | none, none, none => none) := by
  rw [word?, if_neg notTrue]
  exact if_neg notFalse

/-- The text of a scalar, which is read back whatever follows a value. -/
structure IsWord (text : List Char) (v : Value) : Prop where
  head : ∃ c rest, text = c :: rest ∧ isScalarChar c = true
  read : ∀ {rest : List Char}, Follows rest → scalar? (text ++ rest) = some (v, rest)

theorem isWord {word : List Char} {v : Value} (nonempty : word ≠ [])
    (all : ∀ c ∈ word, isScalarChar c = true) (read : word? word = some v)
    (noDate : DateTime.ofText? word = none) : IsWord word v := by
  constructor
  · obtain ⟨c, rest, split⟩ := List.exists_cons_of_ne_nil nonempty
    exact ⟨c, rest, split, all c (split ▸ List.mem_cons_self)⟩
  · intro rest follows
    rw [scalar?, takeWhile_run all follows.stops, dropWhile_run all follows.stops, noDate, read]
    rfl

/-! ## Integers and truth values -/

theorem isWord_integer {n : Int} (fits : inRange n = true) :
    IsWord (Decimal.integer n) (.integer n) := by
  have begins : BeginsNumber (Decimal.integer n) := by
    rw [Decimal.integer]
    split
    · exact .of_minus _
    · rw [← List.append_nil (Decimal.digits n.natAbs)]
      exact .of_run (digits_ne_nil _) (digits_allDigits _) _
  have all : ∀ c ∈ Decimal.integer n, isScalarChar c = true := by
    intro c member
    rw [Decimal.integer] at member
    split at member
    · cases List.mem_cons.mp member with
      | inl minus => rw [minus]; rfl
      | inr digit => exact isScalarChar_of_digit (digits_allDigits _ c digit)
    · exact isScalarChar_of_digit (digits_allDigits _ c member)
  have noDate : DateTime.ofText? (Decimal.integer n) = none := by
    rw [Decimal.integer]
    split
    · exact ofText?_of_head rfl _
    · rw [← List.append_nil (Decimal.digits n.natAbs)]
      exact ofText?_of_run (digits_ne_nil _) (digits_allDigits _) (by simp)
  refine isWord begins.ne_nil all ?_ noDate
  have notTrue : Decimal.integer n ≠ "true".toList := begins.ne rfl (by decide) _
  have notFalse : Decimal.integer n ≠ "false".toList := begins.ne rfl (by decide) _
  rw [word?_other notTrue notFalse, integer?_integer fits]

theorem isWord_boolean (b : Bool) :
    IsWord (if b then "true".toList else "false".toList) (.boolean b) := by
  cases b with
  | true =>
    have all : ∀ c ∈ "true".toList, isScalarChar c = true := List.all_eq_true.mp rfl
    exact isWord (List.cons_ne_nil _ _) all rfl (ofText?_of_head rfl _)
  | false =>
    have all : ∀ c ∈ "false".toList, isScalarChar c = true := List.all_eq_true.mp rfl
    exact isWord (List.cons_ne_nil _ _) all rfl (ofText?_of_head rfl _)

/-! ## Floats -/

theorem noBase_pointed {whole places : List Char} (pointed : Pointed whole places) :
    NoBase (whole ++ '.' :: places) := by
  intro c rest zero
  obtain none | ⟨more, split, behind⟩ := List.append_eq_cons_iff.mp zero
  · exact absurd none.1 pointed.nonempty
  · rw [pointed.leading more split] at behind
    cases behind
    decide

theorem floatText_cases (x : Double) :
    floatText x ∈ ["nan".toList, "inf".toList, "-inf".toList] ∨
      ∃ whole places, Pointed whole places ∧ (floatText x = whole ++ '.' :: places ∨
        floatText x = '-' :: (whole ++ '.' :: places)) := by
  cases parts : x.number with
  | nan =>
    have classified : double.classify x.bits.toNat = .nan := parts
    rw [floatText, Decimal.Text.write, classified]
    exact .inl (by decide)
  | infinite negative =>
    rw [Decimal.eq_infinite parts]
    cases negative <;> exact .inl (by decide)
  | finite negative m e =>
    obtain ⟨whole, places, shape, pointed, -⟩ := magnitude_pointed (shortest_normal parts)
    refine .inr ⟨whole, places, pointed, ?_⟩
    rw [floatText, Decimal.Text.write_finite floatStyle parts, shape]
    cases negative with
    | false => exact .inl rfl
    | true => exact .inr rfl

/-- The text of a float could not be anything else. -/
structure OnlyFloat (text : List Char) : Prop where
  nonempty : text ≠ []
  all : ∀ c ∈ text, isScalarChar c = true
  notInteger : integer? text = none
  notDateTime : DateTime.ofText? text = none
  notTrue : text ≠ "true".toList
  notFalse : text ≠ "false".toList

theorem onlyFloat_pointed {whole places text : List Char} (pointed : Pointed whole places)
    (shape : text = whole ++ '.' :: places ∨ text = '-' :: (whole ++ '.' :: places)) :
    OnlyFloat text := by
  have point : '.' ∈ whole ++ '.' :: places := List.mem_append_right _ List.mem_cons_self
  have chars : ∀ c ∈ whole ++ '.' :: places, isScalarChar c = true := by
    intro c member
    rcases List.mem_append.mp member with front | behind
    · exact isScalarChar_of_digit (pointed.all c front)
    · rcases List.mem_cons.mp behind with rfl | behind
      · rfl
      · exact isScalarChar_of_digit (pointed.allBehind c behind)
  have begins : BeginsNumber text := by
    obtain rfl | rfl := shape
    · exact .of_run pointed.nonempty pointed.all _
    · exact .of_minus _
  refine ⟨begins.ne_nil, ?_, ?_, ?_, begins.ne rfl (by decide) _, begins.ne rfl (by decide) _⟩
  · obtain rfl | rfl := shape
    · exact chars
    · intro c member
      rcases List.mem_cons.mp member with rfl | behind
      · rfl
      · exact chars c behind
  · obtain rfl | rfl := shape
    · refine integer?_none (noBase_pointed pointed) (c := '.') ?_ (by decide) (by decide)
      rw [Decimal.sign_digits fun _ => isDigit_of_head pointed.nonempty pointed.all _]
      exact point
    · exact integer?_none (noBase_of_head (by decide) _) (c := '.') point (by decide) (by decide)
  · obtain rfl | rfl := shape
    · refine ofText?_of_run pointed.nonempty pointed.all ?_
      rintro c ⟨⟩
      decide
    · exact ofText?_of_head (by decide) _

theorem onlyFloat (x : Double) : OnlyFloat (floatText x) := by
  obtain name | ⟨whole, places, pointed, shape⟩ := floatText_cases x
  · have named : ∀ text ∈ ["nan".toList, "inf".toList, "-inf".toList], OnlyFloat text := by
      intro text member
      simp only [List.mem_cons, List.not_mem_nil, or_false] at member
      obtain rfl | rfl | rfl := member
      · exact ⟨by decide, List.all_eq_true.mp rfl, rfl, ofText?_of_head rfl _, by decide, by decide⟩
      · exact ⟨by decide, List.all_eq_true.mp rfl, rfl, ofText?_of_head rfl _, by decide, by decide⟩
      · exact ⟨by decide, List.all_eq_true.mp rfl, rfl, ofText?_of_head rfl _, by decide, by decide⟩
    exact named _ name
  · exact onlyFloat_pointed pointed shape

theorem isWord_float {x : Double} (standard : Standard x) :
    IsWord (floatText x) (.float x) := by
  have only := onlyFloat x
  refine isWord only.nonempty only.all ?_ only.notDateTime
  rw [word?_other only.notTrue only.notFalse, only.notInteger, float?_floatText standard]

/-! ## Date-times -/

theorem padded_scalar (width n : Nat) : (padded width n).all isScalarChar = true :=
  List.all_eq_true.mpr fun c member => isScalarChar_of_digit (padded_allDigits width n c member)

theorem fraction_scalar (n : Nat) : (fractionText n).all isScalarChar = true := by
  rw [fractionText]
  split
  · rfl
  · rw [List.all_cons, List.all_reverse, Bool.and_eq_true]
    refine ⟨rfl, List.all_eq_true.mpr fun c member => ?_⟩
    have inside := List.mem_reverse.mp ((List.dropWhile_sublist _).subset member)
    exact isScalarChar_of_digit (padded_allDigits 9 n c inside)

theorem dateTime_scalar (d : DateTime) : d.text.all isScalarChar = true := by
  have date (d : Date) : d.text.all isScalarChar = true := by
    simp only [Date.text, List.all_append, List.all_cons, padded_scalar]
    rfl
  have time (t : Time) : t.text.all isScalarChar = true := by
    simp only [Time.text, List.all_append, List.all_cons, padded_scalar, fraction_scalar]
    rfl
  have offset (o : Offset) : o.text.all isScalarChar = true := by
    cases o with
    | zulu => rfl
    | ahead minutes =>
      simp only [Offset.text, List.all_append, List.all_cons, padded_scalar]
      split <;> rfl
  cases d with
  | date d => exact date d
  | time t => exact time t
  | civil d t =>
    rw [DateTime.text, List.all_append, List.all_cons, date, time]
    rfl
  | offset d t o =>
    rw [DateTime.text, List.all_append, List.all_append, List.all_cons, date, time, offset]
    rfl

theorem two_le_padded {width : Nat} (wide : 2 ≤ width) (n : Nat) :
    2 ≤ (padded width n).length := by
  rw [padded, List.length_append, List.length_replicate]
  omega

/-- Two digits or more, then a mark that no number has there. -/
theorem dateTime_shape (d : DateTime) :
    ∃ run mark rest, d.text = run ++ mark :: rest ∧ 2 ≤ run.length ∧
      (∀ c ∈ run, c.isDigit = true) ∧ (mark = '-' ∨ mark = ':') := by
  have date (d : Date) : ∃ rest, d.text = padded 4 d.year ++ '-' :: rest :=
    ⟨_, by rw [Date.text, List.append_assoc, List.cons_append]⟩
  have wide := @two_le_padded 4 (by decide)
  cases d with
  | date d =>
    obtain ⟨rest, shape⟩ := date d
    exact ⟨_, _, _, shape, wide _, padded_allDigits _ _, .inl rfl⟩
  | time t =>
    refine ⟨padded 2 t.hour, ':',
      padded 2 t.minute ++ ':' :: (padded 2 t.second ++ fractionText t.nanosecond), ?_,
      two_le_padded (Nat.le_refl 2) _, padded_allDigits _ _, .inr rfl⟩
    simp only [DateTime.text, Time.text, List.append_assoc, List.cons_append]
  | civil d t =>
    obtain ⟨rest, shape⟩ := date d
    refine ⟨padded 4 d.year, '-', rest ++ 'T' :: t.text, ?_, wide _, padded_allDigits _ _, .inl rfl⟩
    rw [DateTime.text, shape, List.append_assoc, List.cons_append]
  | offset d t o =>
    obtain ⟨rest, shape⟩ := date d
    refine ⟨padded 4 d.year, '-', rest ++ 'T' :: t.text ++ o.text, ?_, wide _,
      padded_allDigits _ _, .inl rfl⟩
    rw [DateTime.text, shape, List.append_assoc, List.append_assoc, List.append_assoc,
      List.cons_append]

theorem noBase_run {run : List Char} (two : 2 ≤ run.length) (all : ∀ c ∈ run, c.isDigit = true)
    (rest : List Char) : NoBase (run ++ rest) := by
  match run with
  | [] => cases two
  | [_] => exact absurd two (by simp)
  | a :: b :: run =>
    rintro c more ⟨⟩
    have digit := all b (by simp)
    refine ⟨?_, ?_, ?_⟩ <;> rintro rfl <;> cases digit

theorem float?_none {run rest : List Char} {c : Char} (nonempty : run ≠ [])
    (all : ∀ c ∈ run, c.isDigit = true) (mark : c = '-' ∨ c = ':') :
    float? (run ++ c :: rest) = none := by
  have begins := BeginsNumber.of_run nonempty all (c :: rest)
  have notInfinity : run ++ c :: rest ≠ "inf".toList := begins.ne rfl (by decide) _
  have notNaN : run ++ c :: rest ≠ "nan".toList := begins.ne rfl (by decide) _
  have group : ∀ c ∈ run, isGroupChar c = true := fun c member => by
    rw [isGroupChar, all c member]
    rfl
  have stops : Stops isGroupChar (c :: rest) := by
    obtain rfl | rfl := mark <;> exact stops_cons rfl _
  have noFraction : fractionDigits? (c :: rest) = some (none, c :: rest) :=
    fractionDigits?.eq_2 _ (by
      rintro _ ⟨⟩
      obtain same | same := mark <;> cases same)
  have noExponent : exponent? (c :: rest) = none := by
    obtain rfl | rfl := mark <;> rfl
  rw [float?, Decimal.sign_digits fun _ => isDigit_of_head nonempty all _]
  simp only
  rw [if_neg notInfinity, if_neg notNaN, takeWhile_run group stops, dropWhile_run group stops]
  simp only [bind, noFraction, noExponent, Option.bind_some, Option.bind_none]
  cases wholeDigits? run <;> rfl

theorem word?_dateTime {d : DateTime} (valid : d.Valid) : word? d.text = some (.dateTime d) := by
  obtain ⟨run, mark, rest, shape, two, all, isMark⟩ := dateTime_shape d
  have nonempty : run ≠ [] := by
    rintro rfl
    cases two
  have begins : BeginsNumber d.text := shape ▸ .of_run nonempty all _
  have noInteger : integer? d.text = none := by
    rw [shape]
    refine integer?_none (noBase_run two all _) (c := mark) ?_ ?_ ?_
    · rw [Decimal.sign_digits fun _ => isDigit_of_head nonempty all _]
      exact List.mem_append_right _ List.mem_cons_self
    · obtain rfl | rfl := isMark <;> rfl
    · obtain rfl | rfl := isMark <;> decide
  have noFloat : float? d.text = none := by
    rw [shape]
    exact float?_none nonempty all isMark
  have read : DateTime.ofText? d.text = some d := by
    rw [DateTime.ofText?, DateTime.read_text valid]
    rfl
  have notTrue : d.text ≠ "true".toList := begins.ne rfl (by decide) _
  have notFalse : d.text ≠ "false".toList := begins.ne rfl (by decide) _
  rw [word?_other notTrue notFalse, noInteger, noFloat, read]

/-- The blank behind a date leads over to no time. -/
theorem isWord_dateTime {d : DateTime} (valid : d.Valid) : IsWord d.text (.dateTime d) := by
  have all := List.all_eq_true.mp (dateTime_scalar d)
  constructor
  · obtain ⟨run, mark, rest, shape, wide, digits, -⟩ := dateTime_shape d
    cases run with
    | nil => cases wide
    | cons c run => exact ⟨c, _, shape, isScalarChar_of_digit (digits c List.mem_cons_self)⟩
  · intro rest follows
    have read : DateTime.ofText? d.text = some d := by
      rw [DateTime.ofText?, DateTime.read_text valid]
      rfl
    rw [scalar?, takeWhile_run all follows.stops, dropWhile_run all follows.stops, read]
    split
    next date after isDate =>
      cases isDate
      have alone : after.takeWhile isScalarChar = [] :=
        @takeWhile_run isScalarChar [] after (fun _ member => nomatch member) (follows.noTime rfl)
      have noTime : DateTime.ofText? (Date.text date ++ [' ']) = none := by
        rw [DateTime.ofText?, DateTime.read_dated valid (stops_cons rfl _)]
        rfl
      rw [alone, DateTime.text, noTime]
    · rw [word?_dateTime valid]
      rfl

end GaugeExporter.Toml
