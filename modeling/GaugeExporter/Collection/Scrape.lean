import GaugeExporter.Collection.Station

/-!
# One collection behind the gate

A collection that holds the gate runs the synchronous callbacks, calls the
asynchronous ones and awaits their bodies together, then writes the metrics.
Each list is the one registered at the moment its phase starts. The token is
looked at in front of every round of polls, after the callbacks, and in front
of every metric; a failure of a callback wins over a cancellation that came
before it in the same phase. `turn` is one poll of a collection. Whatever a
collection does goes into the journal first, and right behind every such entry
the token may be cancelled from outside.
-/

namespace GaugeExporter

open Binary (Double)

inductive CollectError where
  | callback (failure : Failure)
  | cancelled
  deriving DecidableEq, Repr

def CollectError.message : CollectError → String
  | .callback failure => "before-collect callback failed: " ++ failure.text
  | .cancelled => "collection cancelled"

abbrev Outcome := Except CollectError Unit

structure Request where
  -- The number of the collection in the journal.
  number : Nat := 0
  timestamp : Int
  token : TokenId
  -- What the output holds already.
  buffer : Bytes := []
  -- The token is cancelled from outside once the journal reads like this.
  outside : Array Event → Bool := fun _ => false

/-- A body among those that are awaited together. -/
inductive Slot where
  | awaited (body : Body)
  | completed

inductive Phase where
  | waiting
  | awaiting (slots : List Slot)
  | ended (outcome : Outcome)

namespace Request

/-- Notes what the collection is about to do. The token may be cancelled from
outside at this moment. -/
def mark (request : Request) (st : Station) (event : Event) : Station :=
  let st := st.record event
  if request.outside st.journal then st.cancel request.token else st

/-! ## Callbacks -/

def runOne (request : Request) (index : Nat) (st : Station) (callback : SyncCallback) :
    Station × Option Failure :=
  match (request.mark st (.ran request.number index)).runSync request.token callback with
  | (st, some failure) => (request.mark st (.failed request.number failure), some failure)
  | (st, none) => (st, none)

/-- Calls an asynchronous callback. Gives the body that is to be awaited. -/
def callOne (request : Request) (index : Nat) (st : Station) (callback : AsyncCallback) :
    Station × Body :=
  (request.mark st (.called request.number index)).call request.token callback

def pollOne (request : Request) (index : Nat) (st : Station) (body : Body) :
    Station × Station.Turn :=
  match (request.mark st (.polled request.number index)).poll request.token body with
  | (st, .failed failure) => (request.mark st (.failed request.number failure), .failed failure)
  | (st, .completed) => (request.mark st (.completed request.number index), .completed)
  | (st, .suspended body) => (st, .suspended body)

/-- Runs the synchronous callbacks, numbered from a start, up to the first that
fails. -/
def runSyncFrom (request : Request) (index : Nat) :
    Station → List SyncCallback → Station × Option Failure
  | st, [] => (st, none)
  | st, callback :: rest =>
    match request.runOne index st callback with
    | (st, some failure) => (st, some failure)
    | (st, none) => runSyncFrom request (index + 1) st rest

/-- Calls the asynchronous callbacks, numbered from a start, in order. -/
def callFrom (request : Request) (index : Nat) :
    Station → List AsyncCallback → Station × List Slot
  | st, [] => (st, [])
  | st, callback :: rest =>
    let (st, body) := request.callOne index st callback
    let (st, slots) := callFrom request (index + 1) st rest
    (st, .awaited body :: slots)

/-- One round of polls over the unfinished bodies, up to the first that fails. It is
assumed of a joined await, as documented, that it ends with the first failure, and that
a round polls every unfinished body once, in the order in which they were given. A join
of more than thirty bodies that polls only those that were woken may go another way. -/
def pollFrom (request : Request) (index : Nat) :
    Station → List Slot → Station × List Slot × Option Failure
  | st, [] => (st, [], none)
  | st, .completed :: rest =>
    let (st, rest, failure) := pollFrom request (index + 1) st rest
    (st, .completed :: rest, failure)
  | st, .awaited body :: rest =>
    match request.pollOne index st body with
    | (st, .failed failure) => (st, .awaited body :: rest, some failure)
    | (st, .completed) =>
      let (st, rest, failure) := pollFrom request (index + 1) st rest
      (st, .completed :: rest, failure)
    | (st, .suspended body) =>
      let (st, rest, failure) := pollFrom request (index + 1) st rest
      (st, .awaited body :: rest, failure)

def isCompleted : Slot → Bool
  | .completed => true
  | .awaited _ => false

/-! ## Writing -/

/-- Writes the blocks of the metrics and the closing line. -/
def write (request : Request) : Station → Bytes → List MetricId → Station × Bytes × Outcome
  | st, out, [] => (st, out ++ Exposition.documentEnd, .ok ())
  | st, out, m :: rest =>
    if st.isCancelled request.token then (st, out, .error .cancelled)
    else
      let st := request.mark st (.began request.number m)
      let metric := st.registry.metrics[m]?.getD default
      let (out, _, pool) := st.registry.writeBlock metric request.timestamp out st.pool
      write request { st with pool } out rest

/-! ## Phases -/

/-- After the callbacks: the document, unless the token has been cancelled. -/
def finish (request : Request) (st : Station) (out : Bytes) : Station × Bytes × Phase :=
  if st.isCancelled request.token then (st, out, .ended (.error .cancelled))
  else
    let st := request.mark st (.prepared request.number)
    let (st, out, outcome) := request.write st out (List.range st.registry.metricCount)
    (st, out, .ended outcome)

/-- A round of polls, and the document once all bodies have completed. -/
def await (request : Request) (st : Station) (out : Bytes) (slots : List Slot) :
    Station × Bytes × Phase :=
  if st.isCancelled request.token then (st, out, .ended (.error .cancelled))
  else
    match request.pollFrom 0 st slots with
    | (st, _, some failure) => (st, out, .ended (.error (.callback failure)))
    | (st, slots, none) =>
      -- The token is looked at again before anything is written.
      if slots.all isCompleted then request.finish st out else (st, out, .awaiting slots)

/-- The first turn of a collection behind the gate. -/
def begin (request : Request) (st : Station) (out : Bytes) : Station × Bytes × Phase :=
  let st := request.mark st (.entered request.number)
  match request.runSyncFrom 0 st st.registry.syncCallbacks with
  | (st, some failure) => (st, out, .ended (.error (.callback failure)))
  | (st, none) =>
    match st.registry.asyncCallbacks with
    | [] => request.finish st out
    | callbacks =>
      let (st, slots) := request.callFrom 0 st callbacks
      request.await st out slots

/-- One turn of a collection. Only a waiting one asks whether it is given the
gate, and it looks at its token before it looks at the gate. -/
def turn (request : Request) (granted : Bool) (st : Station) (out : Bytes) :
    Phase → Station × Bytes × Phase
  | .waiting =>
    if st.isCancelled request.token then (st, out, .ended (.error .cancelled))
    else if granted then request.begin st out
    else (st, out, .waiting)
  | .awaiting slots => request.await st out slots
  | .ended outcome => (st, out, .ended outcome)

end Request

end GaugeExporter
