import GaugeExporter.Text.Quoted
import GaugeExporter.Toml.Shape

/-!
# Kinds of producers

The producers that a configuration can name, and why one cannot be installed.
-/

namespace GaugeExporter.Producer

open Toml (Misfit)

/-- The kinds of producers, in the order in which they are listed. -/
inductive Kind where
  | static
  | process
  | loadAverage
  deriving DecidableEq, Repr

namespace Kind

def all : List Kind := [.static, .process, .loadAverage]

def name : Kind → String
  | .static => "static"
  | .process => "process"
  | .loadAverage => "loadavg"

def description : Kind → String
  | .static => "a single gauge with fixed tags and value"
  | .process => "exporter start time and uptime"
  | .loadAverage => "1, 5 and 15 minute load averages"

def find? (name : String) : Option Kind := all.find? (·.name == name)

theorem find?_name (kind : Kind) : find? kind.name = some kind := by cases kind <;> decide

end Kind

/-! ## Errors -/

/-- What has a name that is not allowed. -/
inductive Named where
  | metric
  | tag
  deriving DecidableEq, Repr

def Named.word : Named → String
  | .metric => "metric"
  | .tag => "tag"

/-- Why a producer cannot be installed. -/
inductive InstallError where
  | unknownKind (kind : String)
  -- The options do not fit.
  | options (kind : Kind) (cause : Misfit)
  | invalidName (what : Named) (name : String)
  deriving DecidableEq, Repr

def InstallError.message : InstallError → String
  | .unknownKind kind => s!"unknown producer kind {Text.quoted kind}"
  | .options kind cause => s!"invalid options for {kind.name} producer: {cause.text}"
  | .invalidName what name => s!"invalid {what.word} name {Text.quoted name}"

end GaugeExporter.Producer
