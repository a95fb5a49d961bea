import GaugeExporter.Files.Tree
import GaugeExporter.Producer.LoadAverage
import GaugeExporter.Registry.Block

/-!
# The station

A station is a registry with what its callbacks touch: files, a clock,
cancellation tokens and a journal. `perform` runs one action of a script,
`Body.poll` one turn of an awaited body. A failing action ends its script with
the effects of the actions before it; nothing else undoes or skips an effect.
-/

namespace GaugeExporter

open Binary (Double)
open Files (Fault)

inductive Failure where
  | message (text : String)
  | file (fault : Fault)
  deriving DecidableEq, Repr

def Failure.text : Failure → String
  | .message text => text
  | .file fault => fault.message

/-- What a journal records, in order. Collections are told apart by number. -/
inductive Event where
  -- A line that a script logged.
  | note (text : String)
  -- A token was cancelled.
  | cancelled (token : TokenId)
  -- A collection obtained the gate.
  | entered (collection : Nat)
  -- A collection runs a synchronous callback.
  | ran (collection callback : Nat)
  -- A collection calls an asynchronous callback.
  | called (collection callback : Nat)
  -- A collection polls the body of an asynchronous callback.
  | polled (collection callback : Nat)
  -- The body of an asynchronous callback completed.
  | completed (collection callback : Nat)
  -- A callback or a body failed.
  | failed (collection : Nat) (failure : Failure)
  -- A collection is done with its callbacks.
  | prepared (collection : Nat)
  -- A collection begins to write the block of a metric.
  | began (collection : Nat) (metric : MetricId)
  -- A collection with this timestamp ended.
  | ended (collection : Nat) (timestamp : Int)
  deriving DecidableEq, Repr

def Event.collection? : Event → Option Nat
  | .note _ | .cancelled _ => none
  | .entered c | .ran c _ | .called c _ | .polled c _ | .completed c _ | .failed c _
  | .prepared c | .began c _ | .ended c _ => some c

structure Station where
  registry : Registry := {}
  files : Files.Tree := {}
  -- Nanoseconds since the epoch.
  clock : Nat := 0
  -- The tokens that have been cancelled.
  cancelled : List TokenId := []
  -- How many tokens have been handed out.
  issued : Nat := 0
  -- The tokens that scripts can cancel, by the index of their collection.
  reachable : List TokenId := []
  -- The buffer for the values of large metrics, kept from scrape to scrape.
  pool : List Double := []
  -- The metrics that scripts have made.
  metricNumbers : Array MetricId := #[]
  -- The series that scripts have made.
  seriesNumbers : Array SeriesId := #[]
  -- How often each script has been started.
  runs : Array Nat := #[]
  ticks : Nat := 0
  journal : Array Event := #[]
  deriving Inhabited

namespace Station

/-! ## Tokens and the journal -/

def isCancelled (st : Station) (token : TokenId) : Bool := st.cancelled.contains token

/-- Hands out a token that has not been cancelled. -/
def issue (st : Station) : Station × TokenId := ({ st with issued := st.issued + 1 }, st.issued)

def record (st : Station) (event : Event) : Station := { st with journal := st.journal.push event }

/-- Cancels a token. Cancelling twice is the same as once. -/
def cancel (st : Station) (token : TokenId) : Station :=
  if st.isCancelled token then st
  else { st with cancelled := token :: st.cancelled }.record (.cancelled token)

/-! ## Series made by scripts -/

/-- Creates a series in a metric, sets it if there is a value, and gives it the
next number. -/
def createIn (st : Station) (metric : MetricId) (tags : List Tag) (value : Option Double) :
    Station :=
  let (registry, id) := st.registry.create metric tags
  let registry :=
    match value with
    | some v => registry.set id v
    | none => registry
  { st with registry, seriesNumbers := st.seriesNumbers.push id }

def metric? (st : Station) (number : Nat) : Option MetricId := st.metricNumbers[number]?

def series? (st : Station) (number : Nat) : Option SeriesId := st.seriesNumbers[number]?

/-- The metric in which a script creates a series. -/
def place? (st : Station) : Place → Option MetricId
  | .metric number => st.metric? number
  | .besides series => ((st.series? series).bind (st.registry.series[·]?)).map (·.owner)

/-- A counter for the runs of a new script. -/
def counter (st : Station) : Station × Nat := ({ st with runs := st.runs.push 0 }, st.runs.size)

/-- Counts a run of a script; gives the number of runs before it. -/
def start (st : Station) (counter : Nat) : Station × Nat :=
  ({ st with runs := st.runs.modify counter (· + 1) }, st.runs[counter]?.getD 0)

/-! ## Actions -/

/-- The run in which an action is performed. -/
structure Context where
  -- The token of the collection.
  token : TokenId
  -- How often the script ran before.
  run : Nat

def glimpse (context : Context) (st : Station) : Glimpse where
  run := context.run
  cancelled := st.isCancelled context.token
  clock := st.clock
  values := st.seriesNumbers.toList.map st.registry.value
  sizes := st.metricNumbers.toList.map fun m => (st.registry.live m).length

/-- Changes the registry at a series with a script's number. -/
def atSeries (st : Station) (number : Nat) (change : Registry → SeriesId → Registry) : Station :=
  match st.series? number with
  | some s => { st with registry := change st.registry s }
  | none => st

mutual

/-- Performs one action. Suspending is left to the body that holds the action. -/
def perform (context : Context) (st : Station) : Action → Station × Option Failure
  | .metric name sortField =>
    let (registry, id) := st.registry.addMetric name sortField
    ({ st with registry, metricNumbers := st.metricNumbers.push id }, none)
  | .create place tags value =>
    match st.place? place with
    | some metric => (st.createIn metric tags value, none)
    | none => (st, none)
  | .bulk number rows =>
    match st.metric? number with
    | some metric =>
      (rows.foldl (fun st (tags, value) => st.createIn metric tags value) st, none)
    | none => (st, none)
  | .set number value => (st.atSeries number fun r s => r.set s value, none)
  | .add number value => (st.atSeries number fun r s => r.set s ((r.value s).add value), none)
  | .remove number => (st.atSeries number fun r s => r.remove s, none)
  | .onSync actions =>
    let (st, counter) := st.counter
    ({ st with registry := st.registry.onSync (.script counter actions) }, none)
  | .onAsync call body =>
    let (st, counter) := st.counter
    ({ st with registry := st.registry.onAsync (.script counter call body) }, none)
  | .log text => (st.record (.note s!"{text}#{context.run}"), none)
  | .fail text runs =>
    let fires :=
      match runs with
      | some numbers => numbers.contains context.run
      | none => true
    (st, if fires then some (.message text) else none)
  | .cancel collection =>
    match st.reachable[collection]? with
    | some token => (st.cancel token, none)
    | none => (st, none)
  | .cancelOwn => (st.cancel context.token, none)
  | .tick => ({ st with ticks := st.ticks + 1 }, none)
  | .choose choice => performAll context st (choice (glimpse context st))
  | .yield | .pending => (st, none)

/-- Performs actions in order up to the first that fails. -/
def performAll (context : Context) (st : Station) : List Action → Station × Option Failure
  | [] => (st, none)
  | action :: rest =>
    match perform context st action with
    | (st, some failure) => (st, some failure)
    | (st, none) => performAll context st rest

end

/-! ## Callbacks -/

def runSync (token : TokenId) (st : Station) : SyncCallback → Station × Option Failure
  | .script counter actions =>
    let (st, run) := st.start counter
    st.performAll ⟨token, run⟩ actions
  | .uptime series started =>
    ({ st with registry := st.registry.set series (.seconds (st.clock - started)) }, none)

/-- Calls an asynchronous callback. Gives the body that is to be awaited. -/
def call (token : TokenId) (st : Station) : AsyncCallback → Station × Body
  | .script counter actions body =>
    let (st, run) := st.start counter
    match st.performAll ⟨token, run⟩ actions with
    | (st, none) => (st, .script run body)
    | (st, some failure) => (st, .failed failure.text)
  | .loadAverage path series => (st, .openFile path series)

inductive Turn where
  | completed
  | failed (failure : Failure)
  | suspended (body : Body)

def setAll (st : Station) (series : List SeriesId) (values : List Double) : Station :=
  { st with
    registry := (series.zip values).foldl (fun r (s, v) => r.set s v) st.registry }

/-- Sets the series to the load averages in a file. A missing file changes
nothing; any other fault, and a text that is not understood, is a failure that
changes nothing either. -/
def refreshLoad (st : Station) (path : String) (series : List SeriesId) :
    Station × Option Failure :=
  match st.files.readText path with
  | .error .notFound => (st, none)
  | .error fault => (st, some (.file fault))
  | .ok text =>
    match LoadAverage.parse? text with
    | none => (st, some (.message (LoadAverage.unrecognized path)))
    | some values => (st.setAll series values, none)

/-- Runs a script's body up to its next suspension or its end. -/
def pollScript (context : Context) : Station → List Action → Station × Turn
  | st, [] => (st, .completed)
  | st, .yield :: rest => (st, .suspended (.script context.run rest))
  | st, .pending :: rest => (st, .suspended (.script context.run (.pending :: rest)))
  | st, action :: rest =>
    match st.perform context action with
    | (st, some failure) => (st, .failed failure)
    | (st, none) => pollScript context st rest

def poll (token : TokenId) (st : Station) : Body → Station × Turn
  | .script run rest => st.pollScript ⟨token, run⟩ rest
  | .failed text => (st, .failed (.message text))
  | .openFile path series => (st, .suspended (.readFile path series))
  | .readFile path series =>
    match st.refreshLoad path series with
    | (st, some failure) => (st, .failed failure)
    | (st, none) => (st, .completed)

end Station

end GaugeExporter
