import GaugeExporter.Exporter.Loop
import GaugeExporter.Proofs.Collection.Files
import GaugeExporter.Proofs.Exporter.Exports

/-!
# Runs of the export loop

A run is any list of moves: cues, and deeds of other parties in between, also of
those that hold standard output.  Its history tells the ticks that were taken and
what came of the exports.  The invariant `Loop.Stands` ties a collection that is
under way, and a buffer that is not yet published, to the last tick of the
history.  So every published document is the complete document of its own tick
(`Stands.published`), and the loop stops under a cancelled token only
(`Stands.cancelled_of_stopped`).  A document is shown
when it is published, and what is shown does not change otherwise
(`Loop.shown_step`).  On other storage a step is `Loop.stepOn`; it is `Loop.step`
on the files of the station (`step_eq_stepOn`), and with any storage the loop
stands where its history says (`Stands.stepOn`).
-/

namespace GaugeExporter.Loop

open Station (Since Background)
open Files (Fault Tree)

/-! ## Runs -/

inductive Move where
  | cue (cue : Cue)
  -- Another party does something.
  | deed (deed : Deed)
  -- Standard output breaks, or is mended.
  | outlet (answer : Except Fault Unit)

def move (loop : Loop) : Move → Loop
  | .cue cue => loop.step cue
  | .deed deed => { loop with station := deed.run loop.station }
  | .outlet answer => { loop with outlet := answer }

/-- Performs the moves of a run in order. -/
def play (loop : Loop) (moves : List Move) : Loop := moves.foldl move loop

theorem play_cons (loop : Loop) (first : Move) (rest : List Move) :
    loop.play (first :: rest) = (loop.move first).play rest := rfl

theorem play_cues (loop : Loop) (cues : List Cue) :
    loop.play (cues.map .cue) = loop.steps cues := List.foldl_map ..

/-- Whenever the shutdown is due, driving the loop is a run of it. -/
theorem drive_plays (due : Loop → Bool) (fuel : Nat) (loop : Loop) :
    ∃ moves, loop.drive due fuel = loop.play moves := by
  induction fuel generalizing loop with
  | zero => exact ⟨[], rfl⟩
  | succ fuel ih =>
    rw [drive]
    split
    · exact ⟨[], rfl⟩
    next cue _ =>
      obtain ⟨moves, same⟩ := ih (loop.step cue)
      exact ⟨.cue cue :: moves, same⟩

inductive Occurrence where
  -- An export begins on this station.
  | ticked (start : Station)
  | published (document : Bytes)
  | failed (cause : ExportError)

def Occurrence.ofResult (document : Bytes) : Except ExportError Nat → Occurrence
  | .ok _ => .published document
  | .error cause => .failed cause

/-- What occurs at a cue. -/
def occurs (loop : Loop) (cue : Cue) : Option Occurrence :=
  match loop.activity, cue with
  | .idle, .tick => some (.ticked loop.station)
  | .publishing outcome, .poll =>
    some (.ofResult loop.buffer (loop.station.conclude loop.sink loop.buffer outcome loop.outlet).2)
  | _, _ => none

def tells (loop : Loop) : Move → Option Occurrence
  | .cue cue => loop.occurs cue
  | .deed _ | .outlet _ => none

/-- What occurs in a run. -/
def history (loop : Loop) : List Move → List Occurrence
  | [] => []
  | first :: rest => (loop.tells first).toList ++ (loop.move first).history rest

/-! ## Steps -/

/-- The cue makes the loop do something. -/
def heeds (loop : Loop) (cue : Cue) : Bool :=
  match loop.activity, cue with
  | .idle, .tick | .collecting _, .poll | .publishing _, .poll => true
  | .idle, .notice => loop.isCancelled
  | _, _ => false

/-- What a step can do, and what occurs. -/
inductive Steps (loop : Loop) : Cue → Option Occurrence → Loop → Prop
  | unmoved {cue : Cue} (ignored : loop.heeds cue = false) : Steps loop cue none loop
  | began (idle : loop.activity = .idle) :
      Steps loop .tick (some (.ticked loop.station))
        { loop with activity := .collecting loop.collection }
  | noticed (idle : loop.activity = .idle) (cancelled : loop.isCancelled = true) :
      Steps loop .notice none { loop with activity := .stopped }
  | advanced {sys : System} (collecting : loop.activity = .collecting sys) :
      Steps loop .poll none (loop.advance sys)
  | concluded {outcome : Outcome} (publishing : loop.activity = .publishing outcome) :
      Steps loop .poll
        (some (.ofResult loop.buffer
          (loop.station.conclude loop.sink loop.buffer outcome loop.outlet).2))
        (loop.conclude outcome)
  | shutdown :
      Steps loop .shutdown none { loop with station := loop.station.cancel loop.token }

theorem steps_step (loop : Loop) (cue : Cue) :
    loop.Steps cue (loop.occurs cue) (loop.step cue) := by
  obtain ⟨station, sink, token, activity, buffer, printed, outlet, outside⟩ := loop
  cases activity <;> cases cue
  case idle.tick => exact .began rfl
  case idle.notice =>
    simp only [step]
    split
    next cancelled => exact .noticed rfl cancelled
    next calm => exact .unmoved (eq_false_of_ne_true calm)
  case collecting.poll => exact .advanced rfl
  case publishing.poll => exact .concluded rfl
  case idle.shutdown | collecting.shutdown | publishing.shutdown | stopped.shutdown =>
    exact .shutdown
  all_goals exact .unmoved rfl

/-! ## A collection under way -/

/-- The request of an export that began on this station. -/
def requestAt (loop : Loop) (start : Station) (buffer : Bytes) : Request :=
  { start.exportRequest loop.token buffer with outside := loop.outside }

/-- The collection that is under way began on this station, and it goes on. -/
structure Collects (loop : Loop) (start : Station) (buffer : Bytes) (sys : System) : Prop where
  keeps : System.Keeps start [loop.requestAt start buffer] { sys with station := loop.station }
  unfinished : ∀ task ∈ sys.tasks, task.phase.IsOpen

/-- The buffer holds what the collection of a call gave. -/
structure Gathered (loop : Loop) (call : Export) (outcome : Outcome) : Prop where
  token : call.token = loop.token
  outside : call.outside = loop.outside
  collected : call.Collected
  ended : call.moment.phase = .ended outcome
  buffer : call.moment.out = loop.buffer

variable {loop : Loop} {start : Station} {buffer : Bytes} {sys : System}

theorem collects_collection (loop : Loop) (activity : Activity) :
    Collects { loop with activity } loop.station loop.buffer loop.collection where
  keeps := System.keeps_ofRequests loop.station [loop.request]
  unfinished task member := by
    obtain rfl := List.mem_singleton.mp member
    trivial

theorem Collects.task (collects : loop.Collects start buffer sys) :
    ∃ task, sys.tasks = [task] ∧ task.request = loop.requestAt start buffer ∧
      task.phase.IsOpen := by
  obtain ⟨task, tasks, request⟩ := List.map_eq_singleton_iff.mp collects.keeps.tasks
  have tasks : sys.tasks = [task] := tasks
  exact ⟨task, tasks, request, collects.unfinished task (tasks ▸ List.mem_singleton_self task)⟩

theorem Collects.aside (collects : loop.Collects start buffer sys) {st : Station}
    (background : Background loop.station st) (outlet : Except Fault Unit) :
    Collects { loop with station := st, outlet } start buffer sys where
  keeps := collects.keeps.aside background
  unfinished := collects.unfinished

section Advance

variable {task : Task} {next : System}
  (polled : { sys with station := loop.station }.poll 0 = next) (tasks : next.tasks = [task])
include polled tasks

theorem advance_open (unfinished : task.phase.IsOpen) :
    loop.advance sys = { loop with station := next.station, activity := .collecting next } := by
  simp only [advance, polled, tasks, List.head?_cons, Option.map_some, Task.outcome?]
  cases phase : task.phase with
  | ended outcome => exact absurd unfinished (by rw [phase]; exact id)
  | waiting => rfl
  | awaiting slots => rfl

theorem advance_ended {outcome : Outcome} (ended : task.phase = .ended outcome) :
    loop.advance sys = { loop with
      station := next.station, buffer := task.out, activity := .publishing outcome } := by
  simp only [advance, polled, tasks, List.head?_cons, Option.map_some, Task.outcome?, ended]

end Advance

/-- A turn of the collection: it goes on, or it has ended and left its output in
the buffer. -/
theorem Collects.advance (collects : loop.Collects start buffer sys) :
    (∃ sys', (loop.advance sys).activity = .collecting sys' ∧
      (loop.advance sys).Collects start buffer sys') ∨
    ∃ call outcome, call.start = start ∧ (loop.advance sys).activity = .publishing outcome ∧
      (loop.advance sys).Gathered call outcome := by
  have keeps := collects.keeps.poll (System.apart_singleton _) 0
  generalize polled : { sys with station := loop.station }.poll 0 = next at keeps
  obtain ⟨task, tasks, request⟩ := List.map_eq_singleton_iff.mp keeps.tasks
  obtain unfinished | ⟨outcome, ended⟩ := task.phase.open_or_ended
  · rw [advance_open polled tasks unfinished]
    refine .inl ⟨next, rfl, keeps, fun other member => ?_⟩
    obtain rfl : other = task := by simpa [tasks] using member
    exact unfinished
  · rw [advance_ended polled tasks ended]
    obtain ⟨turns, moment, course, out, phase, -⟩ := keeps.follows 0 task (by rw [tasks]; rfl)
    rw [request] at course
    exact .inr ⟨⟨start, buffer, loop.token, loop.outside, moment, none⟩, outcome, rfl, rfl,
      rfl, rfl, ⟨turns, course⟩, phase.trans ended, out⟩

/-! ## The invariant -/

/-- Where the loop stands after a history. -/
def Stands (past : List Occurrence) (loop : Loop) : Prop :=
  match loop.activity with
  | .idle => True
  | .collecting sys => ∃ earlier start buffer, past = earlier ++ [.ticked start] ∧
      loop.Collects start buffer sys
  | .publishing outcome => ∃ earlier call, past = earlier ++ [.ticked call.start] ∧
      loop.Gathered call outcome
  | .stopped => loop.isCancelled = true

variable {past : List Occurrence}

theorem Stands.aside (stands : loop.Stands past) {st : Station}
    (background : Background loop.station st) (outlet : Except Fault Unit) :
    Stands past { loop with station := st, outlet } := by
  obtain ⟨station, sink, token, activity, buffer, printed, _, outside⟩ := loop
  cases activity with
  | idle => trivial
  | collecting sys =>
    obtain ⟨earlier, start, buffer, same, collects⟩ := stands
    exact ⟨earlier, start, buffer, same, collects.aside background outlet⟩
  | publishing outcome =>
    obtain ⟨earlier, call, same, gathered⟩ := stands
    exact ⟨earlier, call, same, ⟨gathered.1, gathered.2, gathered.3, gathered.4, gathered.5⟩⟩
  | stopped =>
    obtain ⟨events, since, -⟩ := background
    exact (since.tokens token).mpr (.inl stands)

theorem Stands.advance (collects : loop.Collects start buffer sys) :
    Stands (past ++ [.ticked start]) (loop.advance sys) := by
  unfold Stands
  obtain ⟨sys', activity, later⟩ | ⟨call, outcome, rfl, activity, gathered⟩ := collects.advance
  · rw [activity]
    exact ⟨past, start, buffer, rfl, later⟩
  · rw [activity]
    exact ⟨past, call, rfl, gathered⟩

theorem stands_settle (past : List Occurrence) (loop : Loop) (result : Except ExportError Nat) :
    (loop.settle result).Stands past := by
  unfold settle
  split
  · trivial
  · trivial
  · cases cancelled : loop.isCancelled with
    | true => exact cancelled
    | false => trivial

/-- What one step preserves. -/
theorem Stands.step (stands : loop.Stands past) (cue : Cue) :
    Stands (past ++ (loop.occurs cue).toList) (loop.step cue) := by
  have steps := loop.steps_step cue
  generalize loop.occurs cue = occurrence, loop.step cue = next at steps ⊢
  cases steps with
  | unmoved ignored =>
    rw [Option.toList_none, List.append_nil]
    exact stands
  | began idle => exact ⟨past, loop.station, loop.buffer, rfl, collects_collection _ _⟩
  | noticed idle cancelled => exact cancelled
  | @advanced sys collecting =>
    rw [Stands, collecting] at stands
    obtain ⟨earlier, start, buffer, rfl, collects⟩ := stands
    -- a turn is no occurrence, so the tick stays the last one
    rw [Option.toList_none, List.append_nil]
    exact .advance collects
  | concluded publishing => exact stands_settle _ _ _
  | shutdown =>
    rw [Option.toList_none, List.append_nil]
    exact stands.aside (.cancel _ _) loop.outlet

theorem Stands.move (stands : loop.Stands past) (move : Move) :
    Stands (past ++ (loop.tells move).toList) (loop.move move) := by
  cases move with
  | cue cue => exact stands.step cue
  | deed deed =>
    rw [tells, Option.toList_none, List.append_nil]
    exact stands.aside (deed.background _) loop.outlet
  | outlet answer =>
    rw [tells, Option.toList_none, List.append_nil]
    exact stands.aside (.refl _) answer

/-- The run lemma of the loop. -/
theorem Stands.play (stands : loop.Stands past) (moves : List Move) :
    Stands (past ++ loop.history moves) (loop.play moves) := by
  induction moves generalizing loop past with
  | nil =>
    rw [history, List.append_nil]
    exact stands
  | cons first rest ih =>
    rw [history, ← List.append_assoc]
    exact ih (stands.move first)

/-- A loop that has been started. -/
def launch (station : Station) (sink : Sink) (outside : Array Event → Bool) : Loop :=
  { Loop.start station sink with outside }

theorem stands_launch (station : Station) (sink : Sink) (outside : Array Event → Bool)
    (moves : List Move) :
    Stands ((launch station sink outside).history moves)
      ((launch station sink outside).play moves) := by
  have stands : Stands [] (launch station sink outside) := trivial
  exact stands.play moves

theorem Stands.cancelled_of_stopped (stands : loop.Stands past)
    (stopped : loop.activity = .stopped) : loop.isCancelled = true := by
  rw [Stands, stopped] at stands
  exact stands

/-! ## Publications -/

theorem conclude_file (station : Station) (path : String) (document : Bytes)
    (outlet : Except Fault Unit) :
    ∃ result, Publishes (Tree.storage outlet) path document station.files result
        (station.conclude (.file path) document (.ok ()) outlet).1.files ∧
      (station.conclude (.file path) document (.ok ()) outlet).2
        = (result.mapError .publication).map fun _ => document.length := by
  have publishes := publishes (Tree.storage outlet) path document station.files
  generalize published : (publish (Tree.storage outlet) path document).run station.files = gives
    at publishes
  obtain ⟨result, files⟩ := gives
  refine ⟨result, ?_, ?_⟩
  · rw [Station.conclude, Export.run_conclude_ok document published]
    exact publishes
  · rw [Station.conclude, Export.run_conclude_ok document published]

/-- The collection of the call succeeded, and every look at its token came before
the cancellation. -/
structure Completed (loop : Loop) (call : Export) : Prop extends loop.Gathered call (.ok ()) where
  complete : ∃ events, Since call.start call.moment.station events ∧
    call.request.ending call.start events call.moment.station.registry.metricCount = .complete

theorem Gathered.completed {call : Export} (gathered : loop.Gathered call (.ok ())) :
    loop.Completed call := by
  obtain ⟨turns, course⟩ := gathered.collected
  obtain ⟨events, since, conduct⟩ := course.led
  rw [gathered.ended] at conduct
  refine ⟨gathered, events, since, ?_⟩
  have outcome := (conduct.accounted since).outcome
  generalize call.request.ending _ _ _ = ending at outcome
  cases ending with
  | complete => rfl
  | _ => cases outcome

/-- A buffer that is to be published holds the document of a collection that the last
tick began. -/
theorem Stands.completed (stands : loop.Stands past)
    (publishing : loop.activity = .publishing (.ok ())) :
    ∃ earlier call, past = earlier ++ [.ticked call.start] ∧ loop.Completed call ∧
      loop.buffer = call.document := by
  rw [Stands, publishing] at stands
  obtain ⟨earlier, call, same, gathered⟩ := stands
  exact ⟨earlier, call, same, gathered.completed,
    gathered.buffer.symm.trans (gathered.collected.out gathered.ended)⟩

/-- What is published is the document of a collection that the last tick began. -/
theorem Stands.published (stands : loop.Stands past) {cue : Cue} {document : Bytes}
    (occurs : loop.occurs cue = some (.published document)) :
    ∃ earlier call, past = earlier ++ [.ticked call.start] ∧ loop.Completed call ∧
      document = call.document := by
  have steps := loop.steps_step cue
  generalize loop.step cue = next, loop.occurs cue = occurrence at steps occurs
  cases steps with
  | @concluded outcome publishing =>
    cases outcome with
    | error cause => cases occurs
    | ok u =>
      obtain rfl : loop.buffer = document := by
        generalize (loop.station.conclude loop.sink loop.buffer (.ok u) loop.outlet).2 = result
          at occurs
        cases result with
        | error cause => cases occurs
        | ok size => cases occurs; rfl
      exact stands.completed publishing
  | _ => cases occurs

/-- What can be seen of the sink. -/
def shown (loop : Loop) : Except Fault Bytes :=
  match loop.sink with
  | .standardOutput => .ok loop.printed
  | .file path => loop.station.files.read path

/-- What can be seen of the sink once a document is published. -/
def shownWith (loop : Loop) (document : Bytes) : Except Fault Bytes :=
  match loop.sink with
  | .standardOutput => .ok (loop.printed ++ document)
  | .file _ => .ok document

theorem files_advance (loop : Loop) (sys : System) :
    (loop.advance sys).station.files = loop.station.files := by
  have files := { sys with station := loop.station }.poll_files 0
  unfold advance
  dsimp only
  split <;> exact files

/-- Only a publication changes files. -/
theorem files_step {loop : Loop} {cue : Cue}
    (quiet : ∀ outcome, loop.activity = .publishing outcome → cue ≠ .poll) :
    (loop.step cue).station.files = loop.station.files := by
  have steps := loop.steps_step cue
  generalize loop.occurs cue = occurrence, loop.step cue = next at steps ⊢
  cases steps with
  | unmoved | began | noticed => rfl
  | advanced collecting => exact loop.files_advance _
  | concluded publishing => exact absurd rfl (quiet _ publishing)
  | shutdown => exact Station.cancel_files ..

theorem shown_advance (loop : Loop) (sys : System) : (loop.advance sys).shown = loop.shown := by
  have same : (loop.advance sys).sink = loop.sink ∧ (loop.advance sys).printed = loop.printed := by
    unfold advance
    dsimp only
    split <;> exact ⟨rfl, rfl⟩
  rw [shown, shown, same.1, same.2, files_advance]

theorem shown_conclude (loop : Loop) (outcome : Outcome) :
    (loop.conclude outcome).shown
      = match (loop.station.conclude loop.sink loop.buffer outcome loop.outlet).2 with
        | .ok _ => loop.shownWith loop.buffer
        | .error _ => loop.shown := by
  obtain ⟨station, sink, token, activity, buffer, printed, outlet, outside⟩ := loop
  cases outcome with
  | error cause => rfl
  | ok u =>
    cases sink with
    | standardOutput => cases outlet <;> rfl
    | file path =>
      obtain ⟨result, publishes, gives⟩ := conclude_file station path buffer outlet
      have published := publishes.published (Tree.storage_reliable outlet path)
      simp only [conclude, settle]
      generalize station.conclude (.file path) buffer (.ok u) outlet = concluded at published gives
      obtain ⟨st, given⟩ := concluded
      simp only at published gives
      subst gives
      cases result with
      | ok u => exact (published.done rfl).1
      | error cause => exact published.undone cause rfl

/-- A document is shown when it is published, and nothing else changes what is
shown. -/
theorem shown_step (loop : Loop) (cue : Cue) :
    (loop.step cue).shown = match loop.occurs cue with
      | some (.published document) => loop.shownWith document
      | _ => loop.shown := by
  have steps := loop.steps_step cue
  generalize loop.occurs cue = occurrence, loop.step cue = next at steps ⊢
  cases steps with
  | unmoved ignored => rfl
  | began idle => rfl
  | noticed idle cancelled => rfl
  | advanced collecting => exact loop.shown_advance _
  | @concluded outcome publishing =>
    rw [shown_conclude]
    cases (loop.station.conclude loop.sink loop.buffer outcome loop.outlet).2 <;> rfl
  | shutdown => simp only [shown, Station.cancel_files]

/-! ## Other storage -/

section Other

variable {σ : Type} (storage : Storage (StateM σ)) (loop : Loop) (cue : Cue) (s : σ)

/-- What a step on any storage can do: publish and settle, or what a step does that
publishes nothing. -/
inductive StepsOn : (Loop × Option (Except ExportError Nat)) × σ → Prop
  | concluded {outcome : Outcome} (publishing : loop.activity = .publishing outcome)
      (poll : cue = .poll) {result : Except ExportError Nat} {s' : σ}
      (gives : (GaugeExporter.conclude storage loop.sink loop.buffer outcome).run s
        = (result, s')) :
      StepsOn ((loop.settle result, some result), s')
  | plain (quiet : ∀ outcome, loop.activity = .publishing outcome → cue ≠ .poll) :
      StepsOn ((loop.step cue, none), s)

theorem stepsOn_stepOn : loop.StepsOn storage cue s ((loop.stepOn storage cue).run s) := by
  by_cases poll : ∃ outcome, loop.activity = .publishing outcome ∧ cue = .poll
  · obtain ⟨outcome, publishing, rfl⟩ := poll
    have run : (loop.stepOn storage .poll).run s
        = ((loop.settle ((GaugeExporter.conclude storage loop.sink loop.buffer outcome).run s).1,
            some ((GaugeExporter.conclude storage loop.sink loop.buffer outcome).run s).1),
          ((GaugeExporter.conclude storage loop.sink loop.buffer outcome).run s).2) := by
      simp only [stepOn, publishing]
      rfl
    rw [run]
    exact .concluded publishing rfl rfl
  · have quiet : ∀ outcome, loop.activity = .publishing outcome → cue ≠ .poll :=
      fun outcome publishing same => poll ⟨outcome, publishing, same⟩
    have run : (loop.stepOn storage cue).run s = ((loop.step cue, none), s) := by
      unfold stepOn
      split
      next outcome publishing => exact absurd rfl (quiet outcome publishing)
      next => rfl
    rw [run]
    exact .plain quiet

/-- On the files of its own station the loop takes a cue as `step` does. -/
theorem step_eq_stepOn :
    let run := (loop.stepOn (Tree.storage loop.outlet) cue).run loop.station.files
    loop.step cue = { run.1.1 with station := { run.1.1.station with files := run.2 } } ∧
      ∀ result, run.1.2 = some result → loop.occurs cue = some (.ofResult loop.buffer result) := by
  have steps := loop.stepsOn_stepOn (Tree.storage loop.outlet) cue loop.station.files
  generalize (loop.stepOn (Tree.storage loop.outlet) cue).run loop.station.files = run at steps ⊢
  cases steps with
  | @concluded outcome publishing poll result files gives =>
    subst poll
    have concluded : loop.station.conclude loop.sink loop.buffer outcome loop.outlet
        = ({ loop.station with files }, result) := by
      rw [Station.conclude, gives]
    refine ⟨?_, fun other same => ?_⟩
    · simp only [step, publishing, conclude, concluded]
      -- settling looks at the token and not at the files
      cases result with
      | error cause => rfl
      | ok size => cases sink : loop.sink <;> simp only [settle, sink]
    · cases same
      simp only [occurs, publishing, concluded]
  | plain quiet =>
    refine ⟨?_, nofun⟩
    rw [← files_step quiet]

variable {loop} {past : List Occurrence}

/-- Whatever the storage does, the loop keeps standing where its history says. -/
theorem Stands.stepOn (stands : loop.Stands past) :
    let run := (loop.stepOn storage cue).run s
    Stands (past ++ match run.1.2 with
      | some result => [.ofResult loop.buffer result]
      | none => (loop.occurs cue).toList) run.1.1 := by
  have steps := loop.stepsOn_stepOn storage cue s
  generalize (loop.stepOn storage cue).run s = run at steps ⊢
  cases steps with
  | concluded publishing poll gives => exact stands_settle _ _ _
  | plain quiet => exact stands.step cue

/-- What is published to a storage is the document of a collection that the last tick
began. -/
theorem Stands.publishedOn (stands : loop.Stands past) {size : Nat}
    (gives : ((loop.stepOn storage cue).run s).1.2 = some (.ok size)) :
    ∃ earlier call, past = earlier ++ [.ticked call.start] ∧ loop.Completed call ∧
      loop.buffer = call.document := by
  have steps := loop.stepsOn_stepOn storage cue s
  generalize (loop.stepOn storage cue).run s = run at steps gives
  cases steps with
  | @concluded outcome publishing poll result s' ran =>
    cases outcome with
    | ok u => exact stands.completed publishing
    | error cause =>
      cases ran
      cases gives
  | plain quiet => cases gives

end Other

end GaugeExporter.Loop
