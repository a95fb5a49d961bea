import GaugeExporter.Collection.Scrape

/-!
# Concurrent collections

Collections run as tasks that are polled in some order, one poll at a time. A
gate lets one of them past; the others wait in the order in which they came. A
task that leaves the gate hands it to the first waiter, and a waiter that gives
up passes on a gate it was handed. `poll` is one turn of one task; `run` polls
every unfinished task once a round until nothing moves any more.
-/

namespace GaugeExporter

/-! ## The gate -/

/-- Who holds the gate, and who waits for it in order of arrival. -/
structure Gate where
  holder : Option Nat := none
  queue : List Nat := []
  deriving DecidableEq, Repr, Inhabited

namespace Gate

/-- A task asks for the gate: it holds it, takes it if it is free, or waits. -/
def enter (gate : Gate) (task : Nat) : Gate × Bool :=
  match gate.holder with
  | none => (⟨some task, gate.queue.erase task⟩, true)
  | some holder =>
    if holder = task then (gate, true)
    else if task ∈ gate.queue then (gate, false)
    else (⟨some holder, gate.queue ++ [task]⟩, false)

/-- A task has no more use for the gate: it leaves the queue, or hands the gate
to the first waiter. -/
def leave (gate : Gate) (task : Nat) : Gate :=
  if gate.holder = some task then
    match gate.queue with
    | [] => ⟨none, []⟩
    | next :: rest => ⟨some next, rest⟩
  else ⟨gate.holder, gate.queue.erase task⟩

end Gate

/-! ## Tasks -/

structure Task where
  request : Request
  out : Bytes
  phase : Phase

/-- A task that has not been polled yet. -/
def Request.task (request : Request) : Task := ⟨request, request.buffer, .waiting⟩

/-- The outcome of a task that has ended. -/
def Task.outcome? (task : Task) : Option Outcome :=
  match task.phase with
  | .ended outcome => some outcome
  | _ => none

/-- A station with the collections that run on it. -/
structure System where
  station : Station
  gate : Gate := {}
  tasks : List Task

namespace System

/-- Stores what a turn of a task gave. A task that ended leaves the gate. -/
def settle (sys : System) (index : Nat) (task : Task) (gate : Gate) (station : Station)
    (out : Bytes) (phase : Phase) : System :=
  let tasks := sys.tasks.set index { task with out, phase }
  match phase with
  | .ended _ =>
    { station := station.record (.ended task.request.number task.request.timestamp)
      gate := gate.leave index
      tasks }
  | _ => { station, gate, tasks }

/-- The gate after a task has asked for it, and whether the task has it. Only a
waiting task asks, and only as long as its token is not cancelled. -/
def ask (sys : System) (index : Nat) (task : Task) : Gate × Bool :=
  match task.phase with
  | .waiting =>
    if sys.station.isCancelled task.request.token then (sys.gate, false) else sys.gate.enter index
  | _ => (sys.gate, true)

def poll (sys : System) (index : Nat) : System :=
  match sys.tasks[index]? with
  | none => sys
  | some task =>
    match task.phase with
    | .ended _ => sys
    | phase =>
      let (gate, granted) := sys.ask index task
      let (station, out, phase) := task.request.turn granted sys.station task.out phase
      sys.settle index task gate station out phase

/-- Polls tasks in the order of a list. -/
def pollAll (sys : System) (schedule : List Nat) : System := schedule.foldl poll sys

/-! ## Rounds -/

/-- How far the system still has to go: unfinished tasks, waiting tasks, and the
turns that awaited bodies still need. -/
structure Distance where
  unfinished : Nat
  waiting : Nat
  turns : Nat
  deriving DecidableEq, Repr

def slotTurns : Slot → Nat
  | .awaited body => body.remaining
  | .completed => 0

/-- Turns that the awaited bodies of a collection still need. -/
def phaseTurns : Phase → Nat
  | .awaiting slots => slots.foldr (slotTurns · + ·) 0
  | _ => 0

/-- Turns that a task's awaited bodies still need. -/
def taskTurns (task : Task) : Nat := phaseTurns task.phase

def distance (sys : System) : Distance where
  unfinished := sys.tasks.countP fun task => task.outcome?.isNone
  waiting := sys.tasks.countP fun task =>
    match task.phase with
    | .waiting => true
    | _ => false
  turns := sys.tasks.foldr (taskTurns · + ·) 0

/-- The order of distances, the number of unfinished tasks first. -/
def Distance.less (a b : Distance) : Prop :=
  a.unfinished < b.unfinished ∨
    a.unfinished = b.unfinished ∧
      (a.waiting < b.waiting ∨ a.waiting = b.waiting ∧ a.turns < b.turns)

instance (a b : Distance) : Decidable (a.less b) := by unfold Distance.less; infer_instance

/-- One round: every unfinished task is polled once, in the order of the tasks. -/
def round (sys : System) : System := sys.pollAll (List.range sys.tasks.length)

/-- Rounds as long as they bring the system closer to its end. -/
def run (sys : System) : System :=
  let next := sys.round
  if next.distance.less sys.distance then run next else sys
termination_by (sys.distance.unfinished, sys.distance.waiting, sys.distance.turns)
decreasing_by
  rename_i closer
  simp only [Prod.lex_def]
  exact closer

def ofRequests (station : Station) (requests : List Request) : System :=
  { station, tasks := requests.map Request.task }

end System

/-! ## Collections on a station -/

/-- A collection asked for from outside, before it has a token. -/
structure Order where
  timestamp : Int
  -- The token is cancelled before the first turn.
  cancelled : Bool := false
  -- What the output holds already.
  buffer : Bytes := []
  -- The metric during whose writing the token is cancelled.
  cancelDuring : Option MetricId := none

/-- The output of a collection, and its outcome if it came to an end. -/
structure Result where
  out : Bytes
  outcome : Option Outcome

namespace Station

/-- Hands out a token for an order and cancels it if the order says so. -/
def accept (st : Station) (number : Nat) (order : Order) : Station × Request :=
  let (st, token) := st.issue
  let request :=
    { number, timestamp := order.timestamp, token, buffer := order.buffer,
      outside := fun journal => order.cancelDuring.any fun m =>
        journal.back? == some (.began number m) }
  (if order.cancelled then st.cancel token else st, request)

/-- Hands out tokens for orders, numbered from a start. -/
def acceptFrom (number : Nat) : Station → List Order → Station × List Request
  | st, [] => (st, [])
  | st, order :: rest =>
    let (st, request) := st.accept number order
    let (st, requests) := acceptFrom (number + 1) st rest
    (st, request :: requests)

def serve (st : Station) (requests : List Request) : Station × List Result :=
  let sys := (System.ofRequests st requests).run
  (sys.station, sys.tasks.map fun task => ⟨task.out, task.outcome?⟩)

/-- Runs orders as concurrent collections. Scripts can cancel their tokens by
index while they run. -/
def collectAll (st : Station) (orders : List Order) : Station × List Result :=
  let (st, requests) := st.acceptFrom 0 orders
  let (st, results) := { st with reachable := requests.map Request.token }.serve requests
  ({ st with reachable := [] }, results)

def collect (st : Station) (request : Request) : Station × Result :=
  match st.serve [request] with
  | (st, result :: _) => (st, result)
  | (st, []) => (st, ⟨request.buffer, none⟩)

/-- A collection into an empty buffer whose token scripts do not know, as text. -/
def render (st : Station) (timestamp : Int) : Station × Option (Except CollectError String) :=
  let (st, token) := st.issue
  let (st, result) := st.collect { timestamp, token }
  let text := (Text.decode? result.out).getD (String.ofList (Text.lossy result.out))
  (st, result.outcome.map fun outcome => outcome.map fun _ => text)

/-! ## The journal -/

/-- The lines that scripts logged and, if asked for, the ends of collections. -/
def notes (st : Station) (ends : Bool) : List String :=
  st.journal.toList.filterMap fun event =>
    match event with
    | .note text => some text
    | .ended _ timestamp => if ends then some s!"done {timestamp}" else none
    | _ => none

def clearJournal (st : Station) : Station := { st with journal := #[] }

end Station

end GaugeExporter
