import GaugeExporter.Config.Basic
import GaugeExporter.Config.Error
import GaugeExporter.Files.Tree
import GaugeExporter.Toml.Document
import GaugeExporter.Toml.Marked

/-!
# Reading configurations

A configuration is read from the entries of a document, in document order; the
first entry that does not fit is the error. Unknown entries do not matter. The
export and log settings may also be arrays that give the fields in order, and
the log format a table whose only key names it. Among the options of a producer
marked tables become date-times. A document that does not fit counts as
malformed if a mark anywhere in it cannot be read. A configuration that was read
is then validated: the output first, the interval next, and then the producers.
-/

namespace GaugeExporter

open Toml (Value Table Node Entries ShapeError)

/-! ## Pieces -/

/-- A value that does not fit; date-times count as maps. -/
def unfit {α : Type} (v : Value) (expected : String) : Except ShapeError α :=
  .error (.wrongKind (v.kind fun _ => .map) expected)

def decodeText : Value → Except ShapeError String
  | .string s => .ok s
  | v => unfit v "a string"

def decodeItems : Value → Except ShapeError (List Value)
  | .array items => .ok items
  | v => unfit v "a sequence"

/-- The entries of settings: those of a table, or the items of an array in the
order of the fields. A date-time has no entry that settings know. -/
def settingsEntries (fields : List String) (expected : String) :
    Node → Except ShapeError Entries
  | .table _ entries => .ok entries
  | .tables items => .ok (fields.zip (items.map (.table .header)))
  | .value (.table entries) => .ok (entries.map fun (key, v) => (key, .value v))
  | .value (.array items) => .ok (fields.zip (items.map .value))
  | .value (.dateTime _) => .ok []
  | .value v => unfit v expected

/-! ## Settings -/

def ExportSettings.take (settings : ExportSettings) (entry : String × Node) :
    Except ShapeError ExportSettings :=
  match entry with
  | ("output", node) => (decodeText node.toValue).map ({ settings with output := · })
  | ("interval", node) => (decodeText node.toValue).map ({ settings with interval := · })
  | _ => .ok settings

def ExportSettings.decode (node : Node) : Except ShapeError ExportSettings := do
  let entries ← settingsEntries ["output", "interval"] "struct ExporterConfig" node
  entries.foldlM ExportSettings.take {}

def LogFormat.ofName (name : String) : Except ShapeError LogFormat :=
  match name with
  | "text" => .ok .text
  | "json" => .ok .json
  | _ => .error (.unknownVariant name ["text", "json"])

/-- A chosen format carries nothing: an empty table or array. -/
def expectNothing : Node → Except ShapeError Unit
  -- There is a header for every one of them, so there is at least one.
  | .tables _ => .error .notEmptyArray
  | node =>
    match node.toValue with
    | .table [] | .array [] => .ok ()
    | .table _ | .array _ => .error .notEmpty
    | v => .error (.notTable v.typeName)

def LogFormat.decode : Node → Except ShapeError LogFormat
  | .value (.string s) => LogFormat.ofName s
  | node =>
    match node.entries? with
    | none => .error .notChoice
    | some [] => .error .noChoice
    | some [(name, carried)] =>
      match LogFormat.ofName name with
      | .error e => .error e
      | .ok format => (expectNothing carried).map fun _ => format
    | some _ => .error .manyChoices

def LogSettings.take (settings : LogSettings) (entry : String × Node) :
    Except ShapeError LogSettings :=
  match entry with
  | ("filter", node) => (decodeText node.toValue).map ({ settings with filter := · })
  | ("format", node) => (LogFormat.decode node).map ({ settings with format := · })
  | _ => .ok settings

def LogSettings.decode (node : Node) : Except ShapeError LogSettings := do
  let entries ← settingsEntries ["filter", "format"] "struct LoggingConfig" node
  entries.foldlM LogSettings.take {}

/-! ## Producers -/

def kindKey : String := "kind"

def producerEntries : Value → Except ShapeError Table
  | .table entries => .ok entries
  | .dateTime _ => .ok []
  | v => unfit v "struct ProducerConfig"

/-- Reads the options of a producer. They keep no trace of the order in which the
document gave them. -/
def decodeOptions (entries : Table) : Except ShapeError Table :=
  match Value.unmarkEntries "1 element in map" entries with
  | .error e => .error e.cause
  | .ok options => .ok ((Value.sortedEntries options).mergeSort Value.keyLE)

/-- Reads a producer: its kind, and everything else as options. -/
def ProducerSettings.decode (v : Value) : Except ShapeError ProducerSettings := do
  let entries ← producerEntries v
  match entries.lookup kindKey with
  | none => .error (.missingField kindKey)
  | some kind =>
    let kind ← decodeText kind
    let options ← decodeOptions (entries.filter (·.1 ≠ kindKey))
    return { kind, options }

/-! ## Configurations -/

/-- The time between two exports. -/
def ExportSettings.period (settings : ExportSettings) : Except ConfigError Duration :=
  match settings.duration? with
  | some period => .ok period
  | none => .error (.interval settings.interval)

namespace Config

def take (config : Config) (entry : String × Node) : Except ShapeError Config :=
  match entry with
  | ("exporter", node) => (ExportSettings.decode node).map ({ config with exporter := · })
  | ("logging", node) => (LogSettings.decode node).map ({ config with logging := · })
  | ("producers", node) => do
    let producers ← (← decodeItems node.toValue).mapM ProducerSettings.decode
    return { config with producers }
  | _ => .ok config

def decode (entries : Entries) : Except ShapeError Config := entries.foldlM take {}

def blankKind? (producers : List ProducerSettings) : Option Nat :=
  producers.findIdx? fun p => Text.isBlankText p.kind

def validate (config : Config) : Except ConfigError Unit :=
  if Text.isBlankText config.exporter.output then .error .emptyOutput
  else if config.exporter.duration?.isNone then .error (.interval config.exporter.interval)
  else
    match blankKind? config.producers with
    | some position => .error (.missingKind position)
    | none => .ok ()

def ofText (text : String) : Except ConfigError Config :=
  match Entries.ofText? text with
  | none => .error .malformed
  | some entries =>
    match decode entries with
    | .error cause =>
      -- A mark that cannot be read counts before any shape.
      if Value.entryMarksRead (Toml.finished entries) then .error (.misshapen cause)
      else .error .malformed
    | .ok config =>
      match config.validate with
      | .error e => .error e
      | .ok () => .ok config

def ofFile (files : Files.Tree) (path : String) : Except ConfigError Config :=
  match files.readText path with
  | .error fault => .error (.unreadable path fault)
  | .ok text => ofText text

end Config

end GaugeExporter
