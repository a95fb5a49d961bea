import GaugeExporter.Config.Duration
import GaugeExporter.Toml.Value

/-!
# Configuration

What is exported where and how often, how much is logged, and which producers
run. Everything has a default. `Config.scaffold` is a configuration to start
from, with every producer there is.
-/

namespace GaugeExporter

open Binary (Double)

/-- Where documents go and how often. -/
structure ExportSettings where
  -- The path of a file, or a dash for standard output.
  output : String := "-"
  interval : String := "15s"
  deriving DecidableEq, Repr, Inhabited

inductive LogFormat where
  | text
  | json
  deriving DecidableEq, Repr, Inhabited

def LogFormat.name : LogFormat → String
  | .text => "text"
  | .json => "json"

structure LogSettings where
  filter : String := "info"
  format : LogFormat := .text
  deriving DecidableEq, Repr, Inhabited

/-- A producer: its kind, and its options in key order. -/
structure ProducerSettings where
  kind : String
  options : Toml.Table := []
  deriving Repr, Inhabited

structure Config where
  exporter : ExportSettings := {}
  logging : LogSettings := {}
  producers : List ProducerSettings := []
  deriving Repr, Inhabited

def standardOutput : String := "-"

/-- The file that documents go to, if they do not go to standard output. -/
def ExportSettings.path? (settings : ExportSettings) : Option String :=
  if settings.output = standardOutput then none else some settings.output

def ExportSettings.duration? (settings : ExportSettings) : Option Duration :=
  (Duration.ofText? settings.interval).filter (·.milliseconds ≠ 0)

/-- The settings of the producers are equal, values as numbers compare. -/
def ProducerSettings.agrees (a b : ProducerSettings) : Bool :=
  a.kind == b.kind && Toml.Value.entriesAgree a.options b.options

def producersAgree : List ProducerSettings → List ProducerSettings → Bool
  | [], [] => true
  | a :: as, b :: bs => a.agrees b && producersAgree as bs
  | _, _ => false

/-- A configuration to start from: a gauge tagged with the site, and the other
producers without options. -/
def Config.scaffold (site : String) : Config where
  producers :=
    [ { kind := "static"
        options :=
          [ ("metric", .string "sensord_site_info")
          , ("tags", .table [("site", .string site)])
          , ("value", .float (.ofNatBits 0x3ff0000000000000)) ] }
    , { kind := "process" }
    , { kind := "loadavg" } ]

end GaugeExporter
