import GaugeExporter.Decimal.Numeral
import GaugeExporter.Text.Blank

/-!
# Durations

A duration is written as a number of milliseconds, seconds or minutes, with `ms`,
`s` or `m` behind it; a number alone counts seconds. `Duration.ofText?` reads
that, `Duration.display` is the text in messages.
-/

namespace GaugeExporter

structure Duration where
  milliseconds : Nat
  deriving DecidableEq, Repr

namespace Duration

inductive Scale where
  | millisecond
  | second
  | minute
  deriving DecidableEq, Repr

/-- The milliseconds of so many units. Minutes are counted in seconds of 64 bits, which
wrap around. -/
def Scale.measure (count : Nat) : Scale → Nat
  | .millisecond => count
  | .second => count * 1000
  | .minute => count * 60 % 0x10000000000000000 * 1000

def splitScale (text : List Char) : List Char × Scale :=
  match text.reverse with
  | 's' :: 'm' :: body => (body.reverse, .millisecond)
  | 's' :: body => (body.reverse, .second)
  | 'm' :: body => (body.reverse, .minute)
  | _ => (text, .second)

def ofText? (text : String) : Option Duration :=
  let (body, scale) := splitScale (Text.trim text.toList)
  (Decimal.natural? 0x10000000000000000 body).map fun count => ⟨scale.measure count⟩

def seconds (d : Duration) : Nat := d.milliseconds / 1000

def nanoseconds (d : Duration) : Nat := d.milliseconds % 1000 * 1000000

def placesText (thousandths : Nat) : List Char :=
  if thousandths = 0 then []
  else
    let text := Decimal.digits thousandths
    let padded := List.replicate (3 - text.length) '0' ++ text
    '.' :: (padded.reverse.dropWhile (· == '0')).reverse

def display (d : Duration) : String :=
  if d.milliseconds = 0 then "0ns"
  else if d.milliseconds < 1000 then s!"{d.milliseconds}ms"
  else
    String.ofList (Decimal.digits d.seconds ++ placesText (d.milliseconds % 1000) ++ ['s'])

end Duration

end GaugeExporter
