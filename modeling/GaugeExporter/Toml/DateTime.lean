import GaugeExporter.Decimal.Basic

/-!
# Dates and times

A date-time is a date, a time of day, or both with or without an offset from
universal time. The text is fixed-width; fractions of a second have up to nine
places, without trailing zeros.
-/

namespace GaugeExporter.Toml

structure Date where
  year : Nat
  month : Nat
  day : Nat
  deriving DecidableEq, Repr

/-- A time of day. A second of sixty is a leap second. -/
structure Time where
  hour : Nat
  minute : Nat
  second : Nat
  nanosecond : Nat
  deriving DecidableEq, Repr

inductive Offset where
  | zulu
  -- Minutes ahead.
  | ahead (minutes : Int)
  deriving DecidableEq, Repr

/-- A date, a time, or both. -/
inductive DateTime where
  | date (d : Date)
  | time (t : Time)
  | civil (d : Date) (t : Time)
  | offset (d : Date) (t : Time) (o : Offset)
  deriving DecidableEq, Repr

/-! ## Text -/

/-- The digits of a number, padded with zeros to a width. -/
def padded (width n : Nat) : List Char :=
  let text := Decimal.digits n
  List.replicate (width - text.length) '0' ++ text

def Date.text (d : Date) : List Char :=
  padded 4 d.year ++ '-' :: padded 2 d.month ++ '-' :: padded 2 d.day

/-- The places of a fraction of a second without trailing zeros. -/
def fractionText (nanosecond : Nat) : List Char :=
  if nanosecond = 0 then []
  else '.' :: ((padded 9 nanosecond).reverse.dropWhile (· == '0')).reverse

def Time.text (t : Time) : List Char :=
  padded 2 t.hour ++ ':' :: padded 2 t.minute ++ ':' :: padded 2 t.second
    ++ fractionText t.nanosecond

def Offset.text : Offset → List Char
  | .zulu => ['Z']
  | .ahead minutes =>
    (if minutes < 0 then '-' else '+') :: padded 2 (minutes.natAbs / 60)
      ++ ':' :: padded 2 (minutes.natAbs % 60)

def DateTime.text : DateTime → List Char
  | .date d => d.text
  | .time t => t.text
  | .civil d t => d.text ++ 'T' :: t.text
  | .offset d t o => d.text ++ 'T' :: t.text ++ o.text

/-! ## Calendar -/

def isLeap (year : Nat) : Bool := year % 4 == 0 && (year % 100 != 0 || year % 400 == 0)

def daysIn (year month : Nat) : Nat :=
  if month = 2 then if isLeap year then 29 else 28
  else if month = 4 ∨ month = 6 ∨ month = 9 ∨ month = 11 then 30
  else 31

end GaugeExporter.Toml
