import GaugeExporter.Config.Basic
import GaugeExporter.Exposition.Name
import GaugeExporter.Producer.Options
import GaugeExporter.Registry.Basic

/-!
# Installing producers

A producer registers its metrics and callbacks with a registry. An installation
changes the registry as it goes, and what it changed before it fails stays; so
everything that can be wrong with a producer is found out before its first
change. `installAll` stops at the first producer that cannot be installed and
keeps the ones before it.
-/

namespace GaugeExporter.Producer

open Binary (Double)
open Toml (Table Misfit)

def startTimeName : String := "sensord_process_start_time_seconds"

def uptimeName : String := "sensord_process_uptime_seconds"

def checkName (what : Named) (name : String) : Except InstallError Unit :=
  if Exposition.isValidName name then .ok () else .error (.invalidName what name)

def StaticOptions.tagList (options : StaticOptions) : List Tag :=
  options.tags.map fun (key, v) => Tag.of key (tagValue v)

/-- Options that do not fit are an error of their producer. -/
def decoded {α : Type} (kind : Kind) : Except Misfit α → Except InstallError α
  | .ok a => .ok a
  | .error cause => .error (.options kind cause)

/-! ## Registration -/

def addGauge (r : Registry) (name : String) (tags : List Tag) (value : Double) :
    Registry × SeriesId :=
  let (r, metric) := r.addMetric name none
  let (r, series) := r.create metric tags
  (r.set series value, series)

/-- The time in whole seconds. It is rounded before the fraction is cut off, so that
the last nanoseconds of a second can count for the next one. -/
def startTime (now : Nat) : Double := (Double.seconds now).floor

/-- Registers the gauges of a process that starts now, and the callback that
keeps its uptime. -/
def addProcess (now : Nat) (r : Registry) : Registry :=
  let (r, _) := addGauge r startTimeName [] (startTime now)
  let (r, uptime) := addGauge r uptimeName [] .nan
  r.onSync (.uptime uptime now)

/-- Registers the load averages of all windows, and the callback that reads
their file. -/
def addLoadAverage (path : String) (r : Registry) : Registry :=
  let (r, metric) := r.addMetric LoadAverage.metricName (some LoadAverage.windowKey)
  let (r, series) := LoadAverage.windows.foldl (fun (r, series) window =>
    let (r, s) := r.create metric [⟨LoadAverage.windowKey, window⟩]
    (r, series ++ [s])) (r, [])
  r.onAsync (.loadAverage path series)

/-! ## Installation -/

/-- What changes a registry and can fail on the way. -/
abbrev Installation := ExceptT InstallError (StateM Registry)

/-- The registry after an installation, and what came of it. -/
def Installation.on {α : Type} (r : Registry) (installation : Installation α) :
    Registry × Except InstallError α :=
  (installation.run.run r).swap

/-- The options of a static gauge, with valid names. -/
def StaticOptions.check (options : Table) : Except InstallError StaticOptions := do
  let options ← decoded .static (StaticOptions.decode options)
  checkName .metric options.metric
  options.tags.forM fun (key, _) => checkName .tag key
  return options

def buildStatic (options : Table) : Installation Unit := do
  let options ← StaticOptions.check options
  modify fun r => (addGauge r options.metric options.tagList options.value).1

def buildLoadAverage (options : Table) : Installation Unit := do
  let path ← decoded .loadAverage (loadPath options)
  modify (addLoadAverage path)

def build (now : Nat) (options : Table) : Kind → Installation Unit
  | .static => buildStatic options
  | .process => modify (addProcess now)
  | .loadAverage => buildLoadAverage options

def install (now : Nat) (settings : ProducerSettings) : Installation Unit :=
  match Kind.find? settings.kind with
  | none => throw (.unknownKind settings.kind)
  | some kind => build now settings.options kind

/-- Installs producers in order up to the first that cannot be installed. Gives
their number. -/
def installAll (now : Nat) (r : Registry) (producers : List ProducerSettings) :
    Registry × Except InstallError Nat :=
  Installation.on r do
    producers.forM (install now)
    return producers.length

/-! ## Steps of an installation -/

namespace Installation

variable {α β : Type} (r : Registry)

@[simp] theorem on_pure (a : α) : on r (pure a) = (r, .ok a) := rfl

@[simp] theorem on_modify (change : Registry → Registry) :
    on r (modify change) = (change r, .ok ()) := rfl

/-- A check changes nothing. -/
@[simp] theorem on_check (check : Except InstallError α) : on r (liftM check) = (r, check) := rfl

/-- What comes next sees what was changed before, and does not come after a
failure. -/
theorem on_bind (first : Installation α) (next : α → Installation β) :
    on r (first >>= next) =
      match on r first with
      | (r, .ok a) => on r (next a)
      | (r, .error e) => (r, .error e) := by
  simp only [on, ExceptT.run_bind, StateT.run_bind]
  generalize first.run.run r = done
  obtain ⟨result, r'⟩ := done
  cases result <;> rfl

end Installation

end GaugeExporter.Producer
