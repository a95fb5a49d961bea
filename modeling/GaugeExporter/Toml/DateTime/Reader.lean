import GaugeExporter.Toml.DateTime

/-!
# Reading dates and times

`DateTime.read` reads what the text of a date-time gives, and takes a lower-case
`t` or `z` and a blank between date and time as well. Within a date, a time or an
offset the marks between the numbers come first, then the widths of the numbers,
and then their ranges; the first that is not right is the error.
-/

namespace GaugeExporter.Toml

/-! ## Errors -/

/-- The pieces of a date-time's text. -/
inductive Piece where
  -- All of it.
  | whole
  | date
  -- What stands between date and time.
  | junction
  | time
  | offset
  deriving DecidableEq, Repr

def Piece.name : Piece → String
  | .whole => "datetime"
  | .date => "date"
  | .junction => "date-time"
  | .time => "time"
  | .offset => "offset"

/-- Why a text is no date-time: the piece that is not right, and what would be,
unless it is too long. -/
structure DateTimeError where
  piece : Piece
  expected : Option String
  deriving DecidableEq, Repr

def DateTimeError.message (e : DateTimeError) : String :=
  match e.expected with
  | none => s!"invalid {e.piece.name}"
  | some expected => s!"invalid {e.piece.name}, expected {expected}"

namespace DateTime

def wanted {α : Type} (piece : Piece) (expected : String) : Except DateTimeError α :=
  .error ⟨piece, some expected⟩

/-! ## Numbers and marks -/

def digitRun (piece : Piece) (expected : String) (cs : List Char) :
    Except DateTimeError (List Char × List Char) :=
  match cs.takeWhile Char.isDigit with
  | [] => wanted piece expected
  | run => .ok (run, cs.dropWhile Char.isDigit)

def mark (c : Char) (piece : Piece) (expected : String) :
    List Char → Except DateTimeError (List Char)
  | d :: rest => if d = c then .ok rest else wanted piece expected
  | [] => wanted piece expected

/-- The number of a run of digits that must have a width. -/
def ofWidth (width : Nat) (piece : Piece) (expected : String) (run : List Char) :
    Except DateTimeError Nat :=
  if run.length = width then .ok (Decimal.ofDigits run) else wanted piece expected

def bounded (low high : Nat) (piece : Piece) (expected : String) (n : Nat) :
    Except DateTimeError Unit :=
  if low ≤ n ∧ n ≤ high then .ok () else wanted piece expected

/-! ## Pieces -/

/-- Reads a date from behind the dash that follows its year. -/
def readDate (year cs : List Char) : Except DateTimeError (Date × List Char) := do
  let (month, cs) ← digitRun .date "month" cs
  let cs ← mark '-' .date "`-` (MM-DD)" cs
  let (day, cs) ← digitRun .date "day" cs
  let year ← ofWidth 4 .date "a four-digit year (YYYY)" year
  let month ← ofWidth 2 .date "a two-digit month (MM)" month
  let day ← ofWidth 2 .date "a two-digit day (DD)" day
  bounded 1 12 .date "month between 01 and 12" month
  let last := daysIn year month
  bounded 1 last .date s!"day between 01 and {last}" day
  return (⟨year, month, day⟩, cs)

/-- Nanoseconds from the places behind the point; places after the ninth do not
count. -/
def nanoseconds (places : List Char) : Nat :=
  let kept := places.take 9
  Decimal.ofDigits kept * Nat.pow 10 (9 - kept.length)

def readFraction : List Char → Except DateTimeError (Nat × List Char)
  | '.' :: rest => do
    let (places, cs) ← digitRun .time "nanosecond" rest
    return (nanoseconds places, cs)
  | cs => .ok (0, cs)

def readTime (cs : List Char) : Except DateTimeError (Time × List Char) := do
  let (hour, cs) ← digitRun .time "hour" cs
  let cs ← mark ':' .time "`:` (HH:MM)" cs
  let (minute, cs) ← digitRun .time "minute" cs
  let cs ← mark ':' .time "`:` (MM:SS)" cs
  let (second, cs) ← digitRun .time "second" cs
  let (nanosecond, cs) ← readFraction cs
  let hour ← ofWidth 2 .time "a two-digit hour (HH)" hour
  let minute ← ofWidth 2 .time "a two-digit minute (MM)" minute
  let second ← ofWidth 2 .time "a two-digit second (SS)" second
  bounded 0 23 .time "hour between 00 and 23" hour
  bounded 0 59 .time "minute between 00 and 59" minute
  bounded 0 60 .time "second between 00 and 60" second
  return (⟨hour, minute, second, nanosecond⟩, cs)

def readDistance (cs : List Char) : Except DateTimeError (Nat × List Char) := do
  let (hours, cs) ← digitRun .offset "hour" cs
  let cs ← mark ':' .offset "`:` (HH:MM)" cs
  let (minutes, cs) ← digitRun .offset "minute" cs
  let hours ← ofWidth 2 .offset "a two-digit hour (HH)" hours
  let minutes ← ofWidth 2 .offset "a two-digit minute (MM)" minutes
  bounded 0 23 .offset "hours between 00 and 23" hours
  bounded 0 59 .offset "minutes between 00 and 59" minutes
  return (60 * hours + minutes, cs)

def readOffset : List Char → Except DateTimeError (Option Offset × List Char)
  | [] => .ok (none, [])
  | 'Z' :: rest | 'z' :: rest => .ok (some .zulu, rest)
  | '+' :: rest => do
    let (minutes, cs) ← readDistance rest
    return (some (.ahead minutes), cs)
  | '-' :: rest => do
    let (minutes, cs) ← readDistance rest
    return (some (.ahead (-minutes)), cs)
  | _ => wanted .offset "`Z`, +OFFSET, -OFFSET"

/-! ## Date-times -/

def finish {α : Type} (a : α) : List Char → Except DateTimeError α
  | [] => .ok a
  | _ => .error ⟨.whole, none⟩

def withTime (d : Date) (cs : List Char) : Except DateTimeError DateTime := do
  let (t, cs) ← readTime cs
  let (o, cs) ← readOffset cs
  match o with
  | some o => finish (.offset d t o) cs
  | none => finish (.civil d t) cs

def read (cs : List Char) : Except DateTimeError DateTime := do
  let (first, rest) ← digitRun .whole "year or hour" cs
  match rest with
  | '-' :: rest =>
    let (d, rest) ← readDate first rest
    match rest with
    | [] => return .date d
    | c :: rest =>
      if c = 'T' ∨ c = 't' ∨ c = ' ' then withTime d rest
      else wanted .junction "`T` between date and time"
  | ':' :: _ =>
    let (t, rest) ← readTime cs
    finish (.time t) rest
  | _ => wanted .whole "`-` (YYYY-MM) or `:` (HH:MM)"

def ofText? (cs : List Char) : Option DateTime := (read cs).toOption

end DateTime

end GaugeExporter.Toml
