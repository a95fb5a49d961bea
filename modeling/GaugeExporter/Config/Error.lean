import GaugeExporter.Files.Fault
import GaugeExporter.Text.Quoted
import GaugeExporter.Toml.Shape

/-!
# Configuration errors

Why a text or a file gives no configuration.
-/

namespace GaugeExporter

inductive ConfigError where
  -- The file cannot be read.
  | unreadable (path : String) (fault : Files.Fault)
  -- The text is not a well-formed document, or a mark in it cannot be read.
  | malformed
  -- The document does not have the shape of a configuration.
  | misshapen (cause : Toml.ShapeError)
  -- The interval is no positive duration.
  | interval (text : String)
  | emptyOutput
  -- A producer, by position, has a blank kind.
  | missingKind (position : Nat)
  deriving DecidableEq, Repr

/-- The wording for a file that cannot be read, without the cause. -/
def unreadableText (path : String) : String := s!"failed to read {path}"

/-- The wording of a configuration error, up to where it goes on to quote the
text. -/
def ConfigError.message : ConfigError → String
  | .unreadable path fault => s!"{unreadableText path}: {fault.message}"
  | .malformed | .misshapen _ => "failed to parse config: "
  | .interval text =>
    s!"invalid interval {Text.quoted text} (expected e.g. \"500ms\", \"15s\", \"2m\")"
  | .emptyOutput => "exporter output must not be empty"
  | .missingKind position => s!"producer #{position} has no kind"

end GaugeExporter
