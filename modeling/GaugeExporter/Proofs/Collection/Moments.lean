import GaugeExporter.Proofs.Collection.Exclusion
import GaugeExporter.Proofs.Collection.Lone

/-!
# Where documents come from

As long as a collection goes on its output is the buffer that it was given, and a turn in
which it succeeds puts the document of the registry behind it (`Request.turn_puts`).  So
the document of a collection is that of the registry at one moment of the schedule, all of
it at once (`System.document_of_succeeded`).  A collection that is alone on its station
leaves the station as its course does (`Station.collect_eq`).
-/

namespace GaugeExporter

/-! ## Turns -/

namespace Request

variable (request : Request)

/-- What a turn did to an output: nothing as long as the collection goes on, and a
document behind it if the collection succeeded. -/
def Puts (out : Bytes) (result : Station × Bytes × Phase) : Prop :=
  match result.2.2 with
  | .ended (.ok ()) => result.2.1 = out ++ result.1.registry.document request.timestamp
  | .ended (.error _) => True
  | _ => result.2.1 = out

theorem finish_puts (st : Station) (out : Bytes) : request.Puts out (request.finish st out) := by
  obtain ⟨-, gives⟩ | ⟨-, written, events, outcome, st', out', gives, wrote⟩ :=
    request.finish_cases st out
  · rw [gives]
    trivial
  · rw [gives]
    obtain ⟨rfl, -, text⟩ | ⟨rfl, -⟩ := wrote.outcome
    · exact text
    · trivial

theorem await_puts (st : Station) (out : Bytes) (slots : List Slot) :
    request.Puts out (request.await st out slots) := by
  unfold await
  split
  · trivial
  · split
    · trivial
    · split
      · exact request.finish_puts _ out
      · exact rfl

theorem begin_puts (st : Station) (out : Bytes) : request.Puts out (request.begin st out) := by
  unfold begin
  simp only
  split
  · trivial
  · split
    · exact request.finish_puts _ out
    · exact request.await_puts _ out _

theorem turn_puts (granted : Bool) (st : Station) (out : Bytes) {phase : Phase}
    (unfinished : phase.IsOpen) : request.Puts out (request.turn granted st out phase) := by
  cases phase with
  | waiting =>
    rw [turn]
    split
    · trivial
    · split
      · exact request.begin_puts st out
      · exact rfl
  | awaiting slots => exact request.await_puts st out slots
  | ended outcome => cases unfinished

end Request

/-! ## Schedules -/

/-- What is in the output of a task: the buffer, and behind it the document of one of
these registries if the task has succeeded. -/
def Task.Documented (among : Registry → Prop) (task : Task) : Prop :=
  match task.phase with
  | .ended (.ok ()) =>
    ∃ r, among r ∧ task.out = task.request.buffer ++ r.document task.request.timestamp
  | .ended (.error _) => True
  | _ => task.out = task.request.buffer

variable {among : Registry → Prop}

theorem Task.Documented.buffer {task : Task} (documented : task.Documented among)
    (unfinished : task.phase.IsOpen) : task.out = task.request.buffer := by
  obtain ⟨request, out, phase⟩ := task
  cases phase with
  | waiting => exact documented
  | awaiting slots => exact documented
  | ended outcome => cases unfinished

theorem Request.Puts.documented {task : Task} {st : Station}
    (puts : task.request.Puts task.request.buffer ⟨st, task.out, task.phase⟩)
    (now : among st.registry) : task.Documented among := by
  obtain ⟨request, out, phase⟩ := task
  cases phase with
  | waiting => exact puts
  | awaiting slots => exact puts
  | ended outcome =>
    cases outcome with
    | ok => exact ⟨st.registry, now, puts⟩
    | error e => trivial

namespace System

variable {sys : System} (documented : ∀ task ∈ sys.tasks, task.Documented among)
include documented

theorem documented_set {index : Nat} {task : Task} (new : task.Documented among) :
    ∀ other ∈ sys.tasks.set index task, other.Documented among := by
  intro other inside
  rcases List.mem_or_eq_of_mem_set inside with before | rfl
  · exact documented other before
  · exact new

theorem advance_documented {index : Nat} {task : Task} (found : sys.tasks[index]? = some task)
    (unfinished : task.phase.IsOpen) (gate : Gate)
    (now : among (sys.advance index task gate).station.registry) :
    ∀ other ∈ (sys.advance index task gate).tasks, other.Documented among := by
  have buffer := (documented task (List.mem_of_getElem? found)).buffer unfinished
  have puts := task.request.turn_puts true sys.station task.out unfinished
  rw [buffer] at puts
  obtain ⟨moment, turn⟩ : ∃ moment, task.request.next true (task.moment sys.station) = moment :=
    ⟨_, rfl⟩
  have new (here : among moment.station.registry) :
      Task.Documented among { task with out := moment.out, phase := moment.phase } := by
    subst turn
    rw [Task.moment, buffer] at here ⊢
    exact Request.Puts.documented puts here
  obtain goesOn | ⟨outcome, ended⟩ := moment.phase.open_or_ended
  · rw [advance_open turn goesOn] at now ⊢
    exact documented_set documented (new now)
  · rw [advance_ended turn ended] at now ⊢
    exact documented_set documented (new now)

theorem move_documented (move : Move) (now : among (sys.move move).station.registry) :
    ∀ task ∈ (sys.move move).tasks, task.Documented among := by
  cases move with
  | deed d => exact documented
  | poll index =>
    change among (sys.poll index).station.registry at now
    change ∀ task ∈ (sys.poll index).tasks, _
    have polled := sys.polls index
    generalize sys.poll index = next at polled now ⊢
    cases polled with
    | idle nothing => exact documented
    | refused found waiting cancelled => exact documented_set documented trivial
    | queued found waiting calm denied => exact documented
    | entered found waiting calm granted =>
      exact advance_documented documented found (waiting ▸ trivial) _ now
    | resumed found awaiting =>
      exact advance_documented documented found (awaiting ▸ trivial) _ now

theorem play_documented {moves : List Move}
    (passed : ∀ front, front <+: moves → among (sys.play front).station.registry) :
    ∀ task ∈ (sys.play moves).tasks, task.Documented among := by
  induction moves generalizing sys with
  | nil => exact documented
  | cons move rest ih =>
    have now : among (sys.move move).station.registry := passed [move] (by simp)
    refine ih (move_documented documented move now) fun front part => ?_
    exact passed (move :: front) (List.cons_prefix_cons.mpr ⟨rfl, part⟩)

omit documented in
/-- A collection that has succeeded left the document of the registry at one moment of the
schedule behind its buffer. -/
theorem document_of_succeeded (start : Station) (requests : List Request) {moves : List Move}
    {task : Task} (member : task ∈ ((ofRequests start requests).play moves).tasks)
    (succeeded : task.phase = .ended (.ok ())) :
    ∃ front, front <+: moves ∧ task.out = task.request.buffer
      ++ ((ofRequests start requests).play front).station.registry.document
        task.request.timestamp := by
  have fresh : ∀ task ∈ (ofRequests start requests).tasks, task.Documented fun r => ∃ front,
      front <+: moves ∧ ((ofRequests start requests).play front).station.registry = r := by
    intro task inside
    obtain ⟨request, -, rfl⟩ := List.mem_map.mp inside
    exact rfl
  have documented := play_documented fresh (fun front part => ⟨front, part, rfl⟩) task member
  rw [Task.Documented, succeeded] at documented
  obtain ⟨_, ⟨front, part, rfl⟩, out⟩ := documented
  exact ⟨front, part, out⟩

end System

/-! ## A collection alone on its station -/

/-- The station where a course has led, with the note of the end if the collection has
ended. -/
def Request.noted (request : Request) (moment : Request.Moment) : Station :=
  match moment.phase with
  | .ended _ => moment.station.record (.ended request.number request.timestamp)
  | _ => moment.station

theorem Request.noted_of_open {request : Request} {moment : Request.Moment}
    (unfinished : moment.phase.IsOpen) : request.noted moment = moment.station := by
  obtain ⟨station, out, phase⟩ := moment
  cases phase with
  | ended outcome => cases unfinished
  | waiting => rfl
  | awaiting slots => rfl

theorem Request.registry_noted (request : Request) (moment : Request.Moment) :
    (request.noted moment).registry = moment.station.registry := by
  unfold noted
  split <;> rfl

namespace System

/-- The only task follows a course, and nothing else happens on the station. -/
def Follows (start : Station) (request : Request) (sys : System) : Prop :=
  ∃ turns moment, request.Course (request.first start) turns moment ∧
    sys.station = request.noted moment ∧ sys.tasks = [⟨request, moment.out, moment.phase⟩]

variable {start : Station} {request : Request} {sys : System}

/-- A turn of the only task. -/
theorem Follows.turn {turns : Nat} {moment : Request.Moment}
    (course : request.Course (request.first start) turns moment) (unfinished : moment.phase.IsOpen)
    (station : sys.station = moment.station)
    (tasks : sys.tasks = [⟨request, moment.out, moment.phase⟩]) (gate : Gate) :
    Follows start request (sys.advance 0 ⟨request, moment.out, moment.phase⟩ gate) := by
  have here : Task.moment ⟨request, moment.out, moment.phase⟩ sys.station = moment := by
    rw [Task.moment, station]
  have later := course.turn unfinished true
  generalize turn : request.next true moment = after at later
  rw [← here] at turn
  obtain goesOn | ⟨outcome, ended⟩ := after.phase.open_or_ended
  · rw [advance_open turn goesOn, tasks]
    exact ⟨_, after, later, (Request.noted_of_open goesOn).symm, rfl⟩
  · rw [advance_ended turn ended, tasks]
    refine ⟨_, after, later, ?_, rfl⟩
    simp only [Request.noted, ended]

theorem Follows.poll (follows : sys.Follows start request) :
    (sys.poll 0).Follows start request := by
  obtain ⟨turns, moment, course, station, tasks⟩ := follows
  have only : sys.tasks[0]? = some ⟨request, moment.out, moment.phase⟩ := by
    rw [tasks]
    rfl
  have polled := sys.polls 0
  generalize sys.poll 0 = next at polled ⊢
  cases polled with
  | idle nothing => exact ⟨turns, moment, course, station, tasks⟩
  | refused found waiting cancelled =>
    cases only.symm.trans found
    have waiting : moment.phase = .waiting := waiting
    have station : sys.station = moment.station := by
      rw [station, Request.noted_of_open (waiting ▸ trivial)]
    have cancelled : moment.station.isCancelled request.token = true := station ▸ cancelled
    have turn : request.next false moment
        = ⟨moment.station, moment.out, .ended (.error .cancelled)⟩ := by
      simp only [Request.next, waiting, Request.turn, cancelled, if_true]
    have later := course.turn (waiting ▸ trivial) false
    rw [turn] at later
    refine ⟨_, _, later, ?_, ?_⟩
    · rw [station]
      rfl
    · rw [tasks]
      rfl
  | queued found waiting calm denied => exact ⟨turns, moment, course, station, tasks⟩
  | entered found waiting calm granted =>
    cases only.symm.trans found
    have waiting : moment.phase = .waiting := waiting
    have unfinished : moment.phase.IsOpen := waiting ▸ trivial
    exact .turn course unfinished (station.trans (Request.noted_of_open unfinished)) tasks _
  | resumed found awaiting =>
    cases only.symm.trans found
    have awaiting : moment.phase = .awaiting _ := awaiting
    have unfinished : moment.phase.IsOpen := awaiting ▸ trivial
    exact .turn course unfinished (station.trans (Request.noted_of_open unfinished)) tasks _

theorem Follows.run (follows : sys.Follows start request) : sys.run.Follows start request := by
  induction sys using System.run.induct with
  | case1 sys next closer ih =>
    obtain ⟨_, _, _, _, tasks⟩ := id follows
    rw [System.run, if_pos closer]
    refine ih ?_
    rw [show next = sys.poll 0 from round_single tasks]
    exact follows.poll
  | case2 sys next far =>
    rw [System.run, if_neg far]
    exact follows

end System

/-- A collection of its own gives the output and the outcome of a course, and leaves the
station of this course. -/
theorem Station.collect_eq (st : Station) (request : Request) :
    ∃ turns moment, request.Course (request.first st) turns moment ∧
      st.collect request = (request.noted moment,
        ⟨moment.out, Task.outcome? ⟨request, moment.out, moment.phase⟩⟩) := by
  have first : (System.ofRequests st [request]).Follows st request :=
    ⟨0, request.first st, .rest, rfl, rfl⟩
  obtain ⟨turns, moment, course, station, tasks⟩ := first.run
  refine ⟨turns, moment, course, ?_⟩
  rw [collect, serve]
  simp only [station, tasks, List.map_cons, List.map_nil]

end GaugeExporter
