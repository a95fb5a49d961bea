import GaugeExporter.Config.Error
import GaugeExporter.Exporter.Export
import GaugeExporter.Producer.Basic
import GaugeExporter.Text.Split

/-!
# Error reports

A command that fails reports its error and the causes of the error. Causes are
indented; they are numbered if there are several.
-/

namespace GaugeExporter.CommandLine

/-- An error with its causes, outermost first. -/
structure Report where
  message : String
  causes : List String := []
  deriving DecidableEq, Repr

/-- The lines of a cause behind its mark, later lines under the first. -/
def indented (mark : String) (cause : String) : String :=
  let lines := (Text.split (· == '\n') cause.toList).map String.ofList
  let margin := String.ofList (List.replicate mark.length ' ')
  mark ++ s!"\n{margin}".intercalate lines

def numbered (start : Nat) : List String → List String
  | [] => []
  | cause :: rest => indented s!"    {start}: " cause :: numbered (start + 1) rest

def causesText : List String → String
  | [] => ""
  | [cause] => "\n\nCaused by:\n" ++ indented "    " cause
  | causes => "\n\nCaused by:\n" ++ "\n".intercalate (numbered 0 causes)

def Report.text (report : Report) : String :=
  s!"Error: {report.message}{causesText report.causes}\n"

/-! ## Reports of errors -/

def configCauses : ConfigError → List String
  | .unreadable _ fault => [fault.message]
  | .malformed => ["TOML parse error\n"]
  | .misshapen cause => [s!"TOML parse error\n{cause.message}\n"]
  | _ => []

def configChain (e : ConfigError) : List String :=
  match e with
  | .malformed | .misshapen _ =>
    (configCauses e).map (s!"{e.message}{·}") ++ configCauses e
  | _ => e.message :: configCauses e

def Report.ofConfig (path : String) (e : ConfigError) : Report :=
  ⟨s!"invalid config {path}", configChain e⟩

/-- The report of an error in a configuration that had been accepted. -/
def Report.ofLate (e : ConfigError) : Report := ⟨e.message, configCauses e⟩

def Report.ofInstall (e : Producer.InstallError) : Report :=
  match e with
  | .options _ cause => ⟨e.message, [cause.text]⟩
  | _ => ⟨e.message, []⟩

def Report.ofCollect (e : CollectError) : Report :=
  ⟨e.message, e.causes.map Failure.text⟩

end GaugeExporter.CommandLine
