import GaugeExporter.Toml.Shape

/-!
# Marked tables

A value can be kept in a form that has no date-times. A table whose first key is
`markKey` then stands for a date-time and holds its text; nothing may stand
beside it. `Value.unmark` puts the date-times back, and `Value.marksRead` tells
whether all of them can be read.
-/

namespace GaugeExporter.Toml

def markKey : String := "$__toml_private_datetime"

def markedDate : Value → Except Misfit DateTime
  | .string s =>
    match DateTime.read s.toList with
    | .ok d => .ok d
    | .error cause => .error ⟨.notDateTime cause, [markKey]⟩
  | v => .error ⟨.wrongKind (v.kind fun _ => .map) "string containing a datetime", [markKey]⟩

/-- What a table with these entries stands for, if it is marked. -/
def marked? (room : String) : Table → Option (Except Misfit DateTime)
  | [] => none
  | (key, v) :: rest =>
    if key = markKey then
      some (match markedDate v with
        | .error e => .error e
        | .ok d => if rest.isEmpty then .ok d else .error ⟨.wrongLength (rest.length + 1) room, []⟩)
    else none

namespace Value

mutual

/-- The value with a date-time for every marked table in it, in the order of its
entries. `room` tells what would be right where a marked table has more entries
than its mark. -/
def unmark (room : String) : Value → Except Misfit Value
  | .array items => (unmarkItems room items).map .array
  | .table entries =>
    match marked? room entries with
    | some date => date.map .dateTime
    | none => (unmarkEntries room entries).map .table
  | v => .ok v

def unmarkItems (room : String) : List Value → Except Misfit (List Value)
  | [] => .ok []
  | v :: rest =>
    match v.unmark room, unmarkItems room rest with
    | .error e, _ => .error e
    | .ok _, .error e => .error e
    | .ok v, .ok rest => .ok (v :: rest)

def unmarkEntries (room : String) : List (String × Value) → Except Misfit Table
  | [] => .ok []
  | (key, v) :: rest =>
    match (v.unmark room).mapError (·.under key), unmarkEntries room rest with
    | .error e, _ => .error e
    | .ok _, .error e => .error e
    | .ok v, .ok rest => .ok ((key, v) :: rest)

end

mutual

/-- Every marked table in the value holds the text of a date-time, whatever
stands beside its mark. -/
def marksRead : Value → Bool
  | .array items => itemMarksRead items
  | .table entries =>
    match entries.head?.filter (·.1 == markKey) with
    | some (_, v) => (markedDate v).isOk
    | none => entryMarksRead entries
  | _ => true

/-- The marks in the items of an array can be read. -/
def itemMarksRead : List Value → Bool
  | [] => true
  | v :: rest => v.marksRead && itemMarksRead rest

/-- The marks in the values of a table can be read. -/
def entryMarksRead : List (String × Value) → Bool
  | [] => true
  | (_, v) :: rest => v.marksRead && entryMarksRead rest

end

end Value

end GaugeExporter.Toml
