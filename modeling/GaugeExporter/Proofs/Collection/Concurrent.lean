import Mathlib.Data.List.Forall2
import GaugeExporter.Collection.System
import GaugeExporter.Proofs.Collection.Course

/-!
# Collections that run concurrently

The acts of one collection are asides of every collection with another number:
they enter events of its own and of no other (`turn_aside`).  So wherever a
schedule brings the tasks of a system, each of them follows a course
(`System.Keeps.pollAll`), and what holds of every course holds of every result
that concurrent collections give (`Station.collectAll_courses`).
-/

namespace GaugeExporter

open Station (Since Background)

namespace Request

variable {request other : Request} {st st' : Station}

/-! ## Asides -/

theorem Aside.trans {first second third : Station} (left : other.Aside first second)
    (right : other.Aside second third) : other.Aside first third := by
  obtain ⟨before, since, foreign⟩ := left
  obtain ⟨after, since', foreign'⟩ := right
  refine ⟨before ++ after, since.trans since', ?_⟩
  rw [own_append, foreign, foreign']
  rfl

theorem Aside.of_background (background : Background st st') : other.Aside st st' := by
  obtain ⟨events, since, none⟩ := background
  exact ⟨events, since, other.own_eq_nil fun event member => by simp [none event member]⟩

variable (differs : other.number ≠ request.number)
include differs

theorem record_aside (st : Station) {event : Event}
    (mine : event.collection? = some request.number) : other.Aside st (st.record event) := by
  refine ⟨[event], Station.record_since st fun token same => ?_, ?_⟩
  · subst same
    cases mine
  · refine other.own_eq_nil fun _ member => ?_
    rw [List.mem_singleton.mp member, mine]
    exact fun same => differs (Option.some.inj same).symm

theorem turn_aside (granted : Bool) (st : Station) (out : Bytes) (phase : Phase) :
    other.Aside st (request.turn granted st out phase).1 := by
  obtain ⟨slots, awaits⟩ := phase.exists_awaits
  obtain ⟨entries, slots', acts, -⟩ := request.turn_goes st out slots granted awaits
  exact acts.journaled.aside differs

end Request

/-! ## Systems -/

/-- A task follows a course: as long as it has not ended, up to this moment. -/
def Task.Follows (start st : Station) (task : Task) : Prop :=
  ∃ turns moment, task.request.Course (task.request.first start) turns moment ∧
    moment.out = task.out ∧ moment.phase = task.phase ∧
    (moment.phase.IsOpen → moment.station = st)

namespace Task.Follows

variable {start st st' : Station} {task : Task}

theorem first (request : Request) (st : Station) : request.task.Follows st st :=
  ⟨0, request.first st, .rest, rfl, rfl, fun _ => rfl⟩

theorem aside (follows : task.Follows start st) (aside : task.request.Aside st st') :
    task.Follows start st' := by
  obtain ⟨turns, moment, course, out, phase, now⟩ := follows
  by_cases unfinished : moment.phase.IsOpen
  · obtain rfl := now unfinished
    exact ⟨turns, _, course.aside unfinished aside, out, phase, fun _ => rfl⟩
  · exact ⟨turns, moment, course, out, phase, fun open_ => absurd open_ unfinished⟩

theorem turn (follows : task.Follows start st) (unfinished : task.phase.IsOpen) (granted : Bool) :
    Task.Follows start (task.request.turn granted st task.out task.phase).1
      { task with
        out := (task.request.turn granted st task.out task.phase).2.1
        phase := (task.request.turn granted st task.out task.phase).2.2 } := by
  obtain ⟨turns, ⟨station, out, phase⟩, course, rfl, rfl, now⟩ := follows
  obtain rfl := now unfinished
  exact ⟨turns + 1, _, course.turn unfinished granted, rfl, rfl, fun _ => rfl⟩

end Task.Follows

namespace System

/-- The tasks are those of some requests, in order, and each of them follows a
course from a start. -/
structure Keeps (start : Station) (requests : List Request) (sys : System) : Prop where
  tasks : sys.tasks.map Task.request = requests
  follows : ∀ (index : Nat) (task : Task), sys.tasks[index]? = some task →
    Task.Follows start sys.station task

variable {start : Station} {requests : List Request} {sys : System}

theorem keeps_ofRequests (start : Station) (requests : List Request) :
    Keeps start requests (ofRequests start requests) where
  tasks := by
    rw [ofRequests, List.map_map]
    exact List.map_id _
  follows index task found := by
    rw [ofRequests, List.getElem?_map] at found
    obtain ⟨request, -, rfl⟩ := Option.map_eq_some_iff.mp found
    exact .first request start

/-- Requests with different numbers. -/
def Apart (requests : List Request) : Prop := (requests.map Request.number).Nodup

theorem apart_singleton (request : Request) : Apart [request] := by simp [Apart]

theorem Keeps.differ (keeps : Keeps start requests sys) (apart : Apart requests) {i j : Nat}
    {a b : Task} (atI : sys.tasks[i]? = some a) (atJ : sys.tasks[j]? = some b) (other : i ≠ j) :
    a.request.number ≠ b.request.number := by
  rw [Apart, ← keeps.tasks, List.map_map] at apart
  intro same
  obtain ⟨insideI, rfl⟩ := List.getElem?_eq_some_iff.mp atI
  obtain ⟨insideJ, rfl⟩ := List.getElem?_eq_some_iff.mp atJ
  have lengths : (sys.tasks.map (Request.number ∘ Task.request)).length = sys.tasks.length :=
    List.length_map _
  have equal := @List.getElem_inj _ i j _ (lengths.symm ▸ insideI) (lengths.symm ▸ insideJ) apart
  rw [List.getElem_map, List.getElem_map] at equal
  exact other (equal.mp same)

/-- A turn of an unfinished task takes this task on and is an aside of the
others. -/
theorem Keeps.turn (keeps : Keeps start requests sys) (apart : Apart requests) {index : Nat}
    {task task' : Task} {st : Station} (found : sys.tasks[index]? = some task)
    (same : task'.request = task.request) (mine : Task.Follows start st task')
    (aside : ∀ other : Request, other.number ≠ task.request.number → other.Aside sys.station st)
    (gate : Gate) : Keeps start requests ⟨st, gate, sys.tasks.set index task'⟩ where
  tasks := by
    rw [← keeps.tasks]
    refine List.ext_getElem? fun i => ?_
    rw [List.getElem?_map, List.getElem?_map]
    by_cases self : index = i
    · subst self
      rw [List.getElem?_set_self (List.getElem?_eq_some_iff.mp found).1, found]
      exact congrArg some same
    · rw [List.getElem?_set_ne self]
  follows i other foundOther := by
    by_cases self : index = i
    · subst self
      rw [List.getElem?_set_self (List.getElem?_eq_some_iff.mp found).1] at foundOther
      cases foundOther
      exact mine
    · rw [List.getElem?_set_ne self] at foundOther
      have differs := keeps.differ apart foundOther found (Ne.symm self)
      exact (keeps.follows i other foundOther).aside (aside _ differs)

theorem Keeps.poll (keeps : Keeps start requests sys) (apart : Apart requests) (index : Nat) :
    Keeps start requests (sys.poll index) := by
  rw [System.poll]
  split
  · exact keeps
  next task found =>
    split
    · exact keeps
    next open_ =>
      have unfinished : task.phase.IsOpen := by
        cases phase : task.phase with
        | ended outcome => exact absurd phase (open_ outcome)
        | waiting => trivial
        | awaiting slots => trivial
      obtain ⟨gate, granted⟩ := sys.ask index task
      have mine := (keeps.follows index task found).turn unfinished granted
      have aside : ∀ other : Request, other.number ≠ task.request.number →
          other.Aside sys.station
            (task.request.turn granted sys.station task.out task.phase).1 :=
        fun other differs => Request.turn_aside differs granted _ _ _
      simp only
      revert mine aside
      generalize task.request.turn granted sys.station task.out task.phase = turned
      obtain ⟨st, out, phase⟩ := turned
      intro mine aside
      cases phase with
      | waiting => exact keeps.turn apart found (by rfl) mine aside gate
      | awaiting slots => exact keeps.turn apart found (by rfl) mine aside gate
      | ended outcome =>
        -- the end of a collection is an entry of its own
        have noted : Task.Follows start
            (st.record (.ended task.request.number task.request.timestamp))
            { task with out, phase := .ended outcome } := by
          obtain ⟨turns, moment, course, sameOut, samePhase, -⟩ := mine
          refine ⟨turns, moment, course, sameOut, samePhase, fun still => ?_⟩
          rw [samePhase] at still
          exact still.elim
        refine keeps.turn apart found (by rfl) noted (fun other differs => ?_) _
        exact (aside other differs).trans (Request.record_aside differs st rfl)

/-- The run lemma of a system: whatever the schedule, the tasks follow their
courses. -/
theorem Keeps.pollAll (keeps : Keeps start requests sys) (apart : Apart requests)
    (schedule : List Nat) : Keeps start requests (sys.pollAll schedule) := by
  induction schedule generalizing sys with
  | nil => exact keeps
  | cons index rest ih => exact ih (keeps.poll apart index)

theorem Keeps.run (keeps : Keeps start requests sys) (apart : Apart requests) :
    Keeps start requests sys.run := by
  induction sys using System.run.induct with
  | case1 sys next closer ih =>
    rw [System.run, if_pos closer]
    exact ih (keeps.pollAll apart _)
  | case2 sys next far =>
    rw [System.run, if_neg far]
    exact keeps

end System

/-! ## Results -/

theorem Task.outcome?_eq_some {task : Task} {outcome : Outcome} :
    task.outcome? = some outcome ↔ task.phase = .ended outcome := by
  rw [Task.outcome?]
  cases task.phase with
  | ended other => simp
  | waiting => simp
  | awaiting slots => simp

/-- What a collection gave is what a course of it brought. -/
def Result.OfCourse (result : Result) (request : Request) (start : Station) : Prop :=
  ∃ turns moment, request.Course (request.first start) turns moment ∧ result.out = moment.out ∧
    ∀ outcome, result.outcome = some outcome ↔ moment.phase = .ended outcome

namespace Station

theorem serve_courses (st : Station) {requests : List Request} (apart : System.Apart requests) :
    List.Forall₂ (fun request result => Result.OfCourse result request st) requests
      (st.serve requests).2 := by
  have keeps := (System.keeps_ofRequests st requests).run apart
  have follows : ∀ task ∈ (System.ofRequests st requests).run.tasks,
      Result.OfCourse ⟨task.out, task.outcome?⟩ task.request st := by
    intro task member
    obtain ⟨index, found⟩ := List.getElem?_of_mem member
    obtain ⟨turns, moment, course, out, phase, -⟩ := keeps.follows index task found
    exact ⟨turns, moment, course, out.symm, fun outcome => phase ▸ Task.outcome?_eq_some⟩
  rw [serve]
  simp only
  generalize (System.ofRequests st requests).run = sys at keeps follows
  rw [← keeps.tasks, List.forall₂_map_left_iff, List.forall₂_map_right_iff, List.forall₂_same]
  exact follows

theorem collect_course (st : Station) (request : Request) :
    Result.OfCourse (st.collect request).2 request st := by
  have courses := st.serve_courses (System.apart_singleton request)
  rw [collect]
  revert courses
  generalize st.serve [request] = served
  obtain ⟨st', results⟩ := served
  intro courses
  cases courses with
  | cons course none => cases none; exact course

theorem acceptFrom_numbers (number : Nat) (st : Station) (orders : List Order) :
    (st.acceptFrom number orders).2.map Request.number = List.range' number orders.length := by
  induction orders generalizing number st with
  | nil => rfl
  | cons order rest ih =>
    rw [acceptFrom]
    exact congrArg (number :: ·) (ih (number + 1) (st.accept number order).1)

/-- Whatever orders come together: each of them is answered by what a course of
its request brought, from the station on which all tokens had been handed out. -/
theorem collectAll_courses (st : Station) (orders : List Order) :
    List.Forall₂ (fun request result => Result.OfCourse result request
        { (st.acceptFrom 0 orders).1 with
          reachable := (st.acceptFrom 0 orders).2.map Request.token })
      (st.acceptFrom 0 orders).2 (st.collectAll orders).2 := by
  have apart : System.Apart (st.acceptFrom 0 orders).2 := by
    rw [System.Apart, acceptFrom_numbers]
    exact List.nodup_range'
  exact serve_courses _ apart

end Station

end GaugeExporter
