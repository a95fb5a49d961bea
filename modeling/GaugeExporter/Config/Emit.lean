import GaugeExporter.Config.Basic
import GaugeExporter.Toml.Printer

/-!
# Writing configurations

A configuration is written as a document that gives every setting, the defaults
too. A producer's kind comes first, its options follow in key order.
-/

namespace GaugeExporter

open Toml (Value Table)

def ExportSettings.entries (settings : ExportSettings) : Table :=
  [("output", .string settings.output), ("interval", .string settings.interval)]

def LogSettings.entries (settings : LogSettings) : Table :=
  [("filter", .string settings.filter), ("format", .string settings.format.name)]

def ProducerSettings.entries (settings : ProducerSettings) : Table :=
  ("kind", .string settings.kind) :: settings.options

def Config.entries (config : Config) : Table :=
  [ ("exporter", .table config.exporter.entries)
  , ("logging", .table config.logging.entries)
  , ("producers", .array (config.producers.map fun p => .table p.entries)) ]

def Config.text (config : Config) : String := Table.text config.entries

end GaugeExporter
