import GaugeExporter.CommandLine.Help
import GaugeExporter.CommandLine.Report
import GaugeExporter.Config.Decode
import GaugeExporter.Config.Emit
import GaugeExporter.Exporter.Loop
import GaugeExporter.Producer.Install

/-!
# Commands

What the commands do on a station. Running the export loop is left to the
caller, who decides when it shuts down: `prepare` gives the station with its
producers installed, and `exportLoop` the loop on it.
-/

namespace GaugeExporter.CommandLine

structure Completion where
  exit : Nat
  output : String := ""
  errors : String := ""
  deriving DecidableEq, Repr

def Completion.success (output : String) : Completion := { exit := 0, output }

def Completion.failure (report : Report) : Completion := { exit := 1, errors := report.text }

def Completion.misuse : Completion := { exit := 2, errors := programHelp }

/-! ## Preparation -/

def installAll (st : Station) (producers : List ProducerSettings) :
    Station × Except Producer.InstallError Unit :=
  let (registry, result) := Producer.installAll st.clock st.registry producers
  ({ st with registry }, result.map fun _ => ())

def prepare (st : Station) (path : String) : Except Report (Station × Config) :=
  match Config.ofFile st.files path with
  | .error e => .error (.ofConfig path e)
  | .ok config =>
    match installAll st config.producers with
    | (_, .error e) => .error (.ofInstall e)
    | (st, .ok ()) => .ok (st, config)

/-! ## Commands -/

def producerLine (kind : Producer.Kind) : String := s!"{filled 10 kind.name} {kind.description}\n"

def producersText : String := String.join (Producer.Kind.all.map producerLine)

def summary (path : String) (st : Station) (config : Config) : String :=
  -- A configuration that was prepared has a period, so this is never empty.
  let interval := (config.exporter.duration?.map Duration.display).getD ""
  s!"{path}: ok ({config.producers.length} producers, {st.registry.metricCount} metrics, "
    ++ s!"interval {interval}, output {config.exporter.output})\n"

def checkConfig (st : Station) (path : String) : Completion :=
  match prepare st path with
  | .error report => .failure report
  | .ok (st, config) => .success (summary path st config)

def renderOnce (st : Station) : Completion :=
  match (st.render st.timestamp).2 with
  | some (.ok document) => .success document
  | some (.error e) => .failure (.ofCollect e)
  | none => .success ""

def collect (st : Station) (path : String) : Completion :=
  match prepare st path with
  | .error report => .failure report
  | .ok (st, _) => renderOnce st

def sink (config : Config) : Sink :=
  match config.exporter.path? with
  | some path => .file path
  | none => .standardOutput

def exportLoop (st : Station) (path : String) : Except Report Loop :=
  match prepare st path with
  | .error report => .error report
  | .ok (st, config) =>
    -- The interval has been validated, and it is read once more.
    match config.exporter.period with
    | .error e => .error (.ofLate e)
    | .ok period => .ok (Loop.every period st (sink config))

def Invocation.text : Invocation → String
  | .help none => programHelp
  | .help (some topic) => topic.help
  | .helpOnHelp => helpOnHelpText
  | .version => versionText
  | _ => ""

/-- Does what arguments ask for. The export loop runs for as many cues as the
fuel allows, until it has shut down as soon as the condition holds; the station
is the one at the end. -/
def perform (due : Loop → Bool) (fuel : Nat) (st : Station) : Invocation → Station × Completion
  | .misuse => (st, .misuse)
  | .command (.run path) =>
    match exportLoop st path with
    | .error report => (st, .failure report)
    | .ok loop =>
      let loop := loop.drive due fuel
      (loop.station, .success (String.ofList (Text.lossy loop.printed)))
  | .command (.collect path) => (st, collect st path)
  | .command (.checkConfig path) => (st, checkConfig st path)
  | .command (.init site) => (st, .success (Config.scaffold site).text)
  | .command .producers => (st, .success producersText)
  | request => (st, .success request.text)

end GaugeExporter.CommandLine
