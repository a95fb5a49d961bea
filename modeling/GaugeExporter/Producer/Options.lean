import GaugeExporter.Producer.Basic
import GaugeExporter.Producer.LoadAverage
import GaugeExporter.Tag.Basic
import GaugeExporter.Toml.Marked
import GaugeExporter.Toml.Printer

/-!
# Options of producers

Options are taken in key order; the first that is unknown or does not fit is the
error, and a missing one only where all others fit. Date-times count as their
text. A static gauge needs a metric name and a value, a load average takes the
path of its file, and everything else about a process is known.
-/

namespace GaugeExporter.Producer

open Binary (Double)
open Toml (Value Table ShapeError Misfit)

/-! ## Values -/

/-- A value that does not fit; date-times count as their text. -/
def unfitOption {α : Type} (v : Value) (expected : String) : Except ShapeError α :=
  .error (.wrongKind (v.kind fun d => .string (String.ofList d.text)) expected)

def textOption (expected : String) : Value → Except ShapeError String
  | .string s => .ok s
  | .dateTime d => .ok (String.ofList d.text)
  | v => unfitOption v expected

def numberOption : Value → Except ShapeError Double
  | .float x => .ok x
  | .integer n => .ok (.ofInt n)
  | v => unfitOption v "f64"

def tableOption : Value → Except ShapeError Table
  | .table entries => .ok entries
  | v => unfitOption v "a map"

def atKey {α : Type} (key : String) : Except ShapeError α → Except Misfit α
  | .ok a => .ok a
  | .error cause => .error ⟨cause, [key]⟩

/-! ## Tags -/

mutual

/-- The value with the text of every date-time in its place. -/
def plainDates : Value → Value
  | .dateTime d => .string (String.ofList d.text)
  | .array items => .array (plainItems items)
  | .table entries => .table (plainEntries entries)
  | v => v

def plainItems : List Value → List Value
  | [] => []
  | v :: rest => plainDates v :: plainItems rest

def plainEntries : List (String × Value) → List (String × Value)
  | [] => []
  | (key, v) :: rest => (key, plainDates v) :: plainEntries rest

end

def tagsOption (v : Value) : Except Misfit Table :=
  match atKey "tags" (tableOption v) with
  | .error e => .error e
  | .ok entries =>
    (Value.unmarkEntries "fewer elements in map" (plainEntries entries)).mapError (·.under "tags")

/-- The value of a static gauge's tag. Arrays and tables become their text. -/
def tagValue : Value → TagValue
  | .string s => .text s
  | .boolean b => .boolean b
  | .integer n => .integer n
  | .float x => .double x
  | v => .text v.text

/-! ## Static gauges -/

/-- The options of a static gauge. -/
structure StaticOptions where
  metric : String
  value : Double
  tags : Table
  deriving Repr

/-- The options of a static gauge that have been taken. -/
structure StaticDraft where
  metric : Option String := none
  value : Option Double := none
  tags : Table := []

def StaticDraft.take (draft : StaticDraft) (entry : String × Value) :
    Except Misfit StaticDraft :=
  match entry with
  | ("metric", v) =>
    (atKey "metric" (textOption "a string" v)).map ({ draft with metric := some · })
  | ("value", v) => (atKey "value" (numberOption v)).map ({ draft with value := some · })
  | ("tags", v) => (tagsOption v).map ({ draft with tags := · })
  | (key, _) => .error ⟨.unknownField key ["metric", "value", "tags"], []⟩

def StaticOptions.decode (options : Table) : Except Misfit StaticOptions := do
  let draft ← options.foldlM StaticDraft.take {}
  match draft.metric, draft.value with
  | none, _ => .error ⟨.missingField "metric", []⟩
  | some _, none => .error ⟨.missingField "value", []⟩
  | some metric, some value => .ok { metric, value, tags := draft.tags }

/-! ## Load averages -/

def takePath (_ : String) (entry : String × Value) : Except Misfit String :=
  match entry with
  | ("path", v) => atKey "path" (textOption "path string" v)
  | (key, _) => .error ⟨.unknownField key ["path"], []⟩

def loadPath (options : Table) : Except Misfit String :=
  options.foldlM takePath LoadAverage.defaultPath

end GaugeExporter.Producer
