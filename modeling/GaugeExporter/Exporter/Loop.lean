import GaugeExporter.Config.Duration
import GaugeExporter.Exporter.Export

/-!
# The export loop

The loop exports at every tick until its token is cancelled by a shutdown. It is
a state machine: `Loop.step` takes one cue, and any order of cues is a run of
it. A shutdown may come between two cues, or while a collection has its turn. A
failed export ends the loop only if the token is cancelled by then. `Loop.drive`
chooses the cues for a shutdown that comes as soon as a condition holds. On
other storage than the files of its station the loop takes its cues by
`Loop.stepOn`.
-/

namespace GaugeExporter

inductive Activity where
  | idle
  -- A collection is under way.
  | collecting (sys : System)
  -- The collection has ended; the buffer has not been published yet.
  | publishing (outcome : Outcome)
  | stopped

structure Loop where
  station : Station
  sink : Sink
  token : TokenId
  activity : Activity := .idle
  -- The buffer for documents, kept from export to export.
  buffer : Bytes := []
  -- What has been written to standard output.
  printed : Bytes := []
  -- What standard output answers at present.
  outlet : Except Files.Fault Unit := .ok ()
  -- The token is cancelled from outside once the journal reads like this.
  outside : Array Event → Bool := fun _ => false

inductive Cue where
  -- It is time for an export.
  | tick
  -- The export that is under way gets a turn.
  | poll
  -- The token is cancelled.
  | shutdown
  -- The idle loop sees that the token is cancelled.
  | notice
  deriving DecidableEq, Repr

namespace Loop

def isCancelled (loop : Loop) : Bool := loop.station.isCancelled loop.token

/-- A loop on a station, with a token of its own. -/
def start (station : Station) (sink : Sink) : Loop :=
  let (station, token) := station.issue
  { station, sink, token }

/-- A loop with a ticker. There is no ticker with a period of zero, and without
one the loop fails before its first tick. -/
def every (period : Duration) (station : Station) (sink : Sink) : Loop :=
  let loop := start station sink
  if period.milliseconds = 0 then { loop with activity := .stopped } else loop

def request (loop : Loop) : Request :=
  loop.station.exportRequest loop.token loop.buffer loop.outside

def collection (loop : Loop) : System := System.ofRequests loop.station [loop.request]

/-- A turn of the collection that is under way. -/
def advance (loop : Loop) (sys : System) : Loop :=
  let sys := { sys with station := loop.station }.poll 0
  let loop := { loop with station := sys.station }
  match sys.tasks.head?.map fun task => (task.out, task.outcome?) with
  | some (out, some outcome) => { loop with buffer := out, activity := .publishing outcome }
  | _ => { loop with activity := .collecting sys }

/-- After an export: the loop goes on, unless it failed under a cancelled
token. -/
def settle (loop : Loop) (result : Except ExportError Nat) : Loop :=
  match result, loop.sink with
  | .ok _, .standardOutput =>
    { loop with activity := .idle, printed := loop.printed ++ loop.buffer }
  | .ok _, .file _ => { loop with activity := .idle }
  -- Not every failure under a cancelled token comes from the cancellation.
  | .error _, _ => { loop with activity := if loop.isCancelled then .stopped else .idle }

/-- Publishes the buffer, if the collection gave a document. -/
def conclude (loop : Loop) (outcome : Outcome) : Loop :=
  let (station, result) := loop.station.conclude loop.sink loop.buffer outcome loop.outlet
  { loop with station }.settle result

/-- Takes a cue. A cue that does not fit what the loop is doing changes
nothing. -/
def step (loop : Loop) (cue : Cue) : Loop :=
  match loop.activity, cue with
  | .idle, .tick => { loop with activity := .collecting loop.collection }
  | .idle, .notice => if loop.isCancelled then { loop with activity := .stopped } else loop
  | .collecting sys, .poll => loop.advance sys
  | .publishing outcome, .poll => loop.conclude outcome
  | _, .shutdown => { loop with station := loop.station.cancel loop.token }
  | _, _ => loop

def steps (loop : Loop) (cues : List Cue) : Loop := cues.foldl step loop

/-- Takes a cue, with another storage than the files of the station to publish
to. Tells what came of an export that ends. -/
def stepOn {m : Type → Type} [Monad m] (storage : Storage m) (loop : Loop) (cue : Cue) :
    m (Loop × Option (Except ExportError Nat)) :=
  match loop.activity, cue with
  | .publishing outcome, .poll => do
    let result ← GaugeExporter.conclude storage loop.sink loop.buffer outcome
    return (loop.settle result, some result)
  | _, _ => return (loop.step cue, none)

/-- The next cue if the shutdown comes as soon as a condition holds. -/
def cue? (due : Loop → Bool) (loop : Loop) : Option Cue :=
  match loop.activity with
  | .stopped => none
  | .idle => some (if loop.isCancelled then .notice else if due loop then .shutdown else .tick)
  | .collecting _ => some (if !loop.isCancelled && due loop then .shutdown else .poll)
  | .publishing _ => some .poll

/-- Runs the loop until it stops, for at most so many cues. -/
def drive (due : Loop → Bool) : Nat → Loop → Loop
  | 0, loop => loop
  | fuel + 1, loop =>
    match loop.cue? due with
    | none => loop
    | some cue => drive due fuel (loop.step cue)

end Loop

end GaugeExporter
