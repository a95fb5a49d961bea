import GaugeExporter.Proofs.Collection.Concurrent

/-!
# Schedules

Between the polls of collections other parties use the registry, cancel tokens,
change files and let time pass.  A schedule is a list of such moves in any order;
`System.play` performs it.  Deeds belong to no collection (`Deed.background`),
so the tasks follow their courses through every schedule (`Keeps.play`).
`Request.play` is the same for a single collection, without tasks and gate.
-/

namespace GaugeExporter

open Station (Since Background)

/-! ## Deeds and moves -/

/-- What a party that collects nothing does in one go. -/
inductive Deed where
  -- Uses the registry and the tokens as a script does, up to the first failure.
  | act (context : Station.Context) (actions : List Action)
  -- Time passes, and files change.
  | world (clock : Nat) (files : Files.Tree)

def Deed.run (st : Station) : Deed → Station
  | .act context actions => (st.performAll context actions).1
  | .world clock files => { st with clock, files }

theorem Deed.background (deed : Deed) (st : Station) : Background st (deed.run st) := by
  cases deed with
  | act context actions => exact Station.performAll_background context st actions
  | world clock files => exact .of_same rfl rfl rfl

inductive Move where
  -- The task at a position is polled.
  | poll (index : Nat)
  | deed (deed : Deed)

namespace System

def move (sys : System) : Move → System
  | .poll index => sys.poll index
  | .deed deed => { sys with station := deed.run sys.station }

/-- Performs the moves of a schedule in order. -/
def play (sys : System) (moves : List Move) : System := moves.foldl move sys

theorem play_append (sys : System) (before after : List Move) :
    sys.play (before ++ after) = (sys.play before).play after := List.foldl_append ..

theorem play_cons (sys : System) (first : Move) (rest : List Move) :
    sys.play (first :: rest) = (sys.move first).play rest := rfl

variable {start : Station} {requests : List Request} {sys : System}

theorem Keeps.aside (keeps : Keeps start requests sys) {st : Station}
    (background : Background sys.station st) :
    Keeps start requests { sys with station := st } where
  tasks := keeps.tasks
  follows index task found := (keeps.follows index task found).aside (.of_background background)

theorem Keeps.move (keeps : Keeps start requests sys) (apart : Apart requests) (move : Move) :
    Keeps start requests (sys.move move) := by
  cases move with
  | poll index => exact keeps.poll apart index
  | deed deed => exact keeps.aside (deed.background sys.station)

theorem Keeps.play (keeps : Keeps start requests sys) (apart : Apart requests)
    (moves : List Move) : Keeps start requests (sys.play moves) := by
  induction moves generalizing sys with
  | nil => exact keeps
  | cons move rest ih => exact ih (keeps.move apart move)

end System

/-! ## Steps of a single collection -/

inductive Step where
  -- The collection is polled, with or without the gate being granted.
  | turn (granted : Bool)
  | deed (deed : Deed)
  -- The end of another collection is noted in the journal.
  | noted (number : Nat) (timestamp : Int)

def Step.isNoted : Step → Bool
  | .noted .. => true
  | _ => false

/-- What a single task sees of a move: its own turns and all deeds. -/
def Move.seenBy (index : Nat) : Move → List Step
  | .poll other => if other = index then [.turn true] else []
  | .deed d => [.deed d]

namespace Request

variable (request : Request)

def step (moment : Moment) : Step → Moment
  | .turn granted => request.next granted moment
  | .deed deed => { moment with station := deed.run moment.station }
  | .noted number timestamp =>
    { moment with station := moment.station.record (.ended number timestamp) }

/-- A collection takes turns, and other parties go on in between. -/
def play (moment : Moment) (steps : List Step) : Moment := steps.foldl request.step moment

theorem play_append (moment : Moment) (before after : List Step) :
    request.play moment (before ++ after) = request.play (request.play moment before) after :=
  List.foldl_append ..

end Request

end GaugeExporter
