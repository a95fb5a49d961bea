import GaugeExporter.Proofs.Collection.Endings
import GaugeExporter.Proofs.Collection.Schedule

/-!
# Mutual exclusion of collections

The gate belongs to a task that has not ended, whoever is past it holds it, and
if nobody holds it nobody waits for it (`Guarded`).  `System.Polls` says once
what a poll can do; every poll keeps the gate guarded (`Guarded.poll`).
-/

namespace GaugeExporter

open Station (Since Background)

/-! ## The gate -/

namespace Gate

variable {gate : Gate} {index : Nat}

/-- The gate after its holder has left: the first waiter has it. -/
def pass (gate : Gate) : Gate :=
  match gate.queue with
  | [] => ⟨none, []⟩
  | next :: rest => ⟨some next, rest⟩

theorem leave_holder (holds : gate.holder = some index) : gate.leave index = gate.pass := by
  rw [leave, if_pos holds]
  rfl

theorem leave_other (other : gate.holder ≠ some index) :
    gate.leave index = ⟨gate.holder, gate.queue.erase index⟩ := by
  rw [leave, if_neg other]

/-- Whoever is let in holds the gate, and the others wait as before. -/
theorem enter_granted (free : gate.holder = none → gate.queue = [])
    (granted : (gate.enter index).2 = true) :
    (gate.holder = none ∨ gate.holder = some index) ∧
      gate.enter index = (⟨some index, gate.queue⟩, true) := by
  obtain ⟨holder, queue⟩ := gate
  simp only [enter] at granted ⊢
  cases holder with
  | none =>
    obtain rfl : queue = [] := free rfl
    exact ⟨.inl rfl, rfl⟩
  | some other =>
    simp only at granted ⊢
    by_cases same : other = index
    · subst same
      rw [if_pos rfl]
      exact ⟨.inr rfl, rfl⟩
    · rw [if_neg same] at granted
      split at granted <;> cases granted

/-- Whoever is not let in waits, behind those who came before. -/
theorem enter_denied (denied : (gate.enter index).2 = false) :
    gate.holder ≠ none ∧ gate.holder ≠ some index ∧ (gate.enter index).1
      = ⟨gate.holder, if index ∈ gate.queue then gate.queue else gate.queue ++ [index]⟩ := by
  obtain ⟨holder, queue⟩ := gate
  simp only [enter] at denied ⊢
  cases holder with
  | none => cases denied
  | some other =>
    simp only at denied ⊢
    by_cases same : other = index
    · rw [if_pos same] at denied
      cases denied
    · rw [if_neg same]
      refine ⟨nofun, fun holds => same (Option.some.inj holds), ?_⟩
      split <;> rfl

/-- Somebody has the gate or waits for it. -/
def Knows (gate : Gate) (index : Nat) : Prop := gate.holder = some index ∨ index ∈ gate.queue

variable {other : Nat}

/-- Nobody is forgotten when another leaves. -/
theorem Knows.leave (knows : gate.Knows index) (differs : other ≠ index) :
    (gate.leave other).Knows index := by
  by_cases holds : gate.holder = some other
  · rw [leave_holder holds, pass]
    have waits : index ∈ gate.queue :=
      knows.resolve_left fun same => differs (Option.some.inj (holds.symm.trans same))
    split
    next empty =>
      rw [empty] at waits
      cases waits
    next next rest queue =>
      rw [queue] at waits
      exact (List.mem_cons.mp waits).imp_left fun same => by rw [same]
  · rw [leave_other holds]
    exact knows.imp_right (List.mem_erase_of_ne (Ne.symm differs)).mpr

/-- Nobody is forgotten when another asks. -/
theorem Knows.enter (knows : gate.Knows index) (differs : other ≠ index) :
    (gate.enter other).1.Knows index := by
  obtain ⟨holder, queue⟩ := gate
  simp only [Gate.enter]
  cases holder with
  | none =>
    have waits : index ∈ queue := knows.resolve_left nofun
    exact .inr ((List.mem_erase_of_ne (Ne.symm differs)).mpr waits)
  | some holder =>
    simp only
    split
    · exact knows
    · split
      · exact knows
      · exact knows.imp_right (List.mem_append_left _)

end Gate

/-! ## Polls -/

theorem Phase.open_or_ended (phase : Phase) :
    phase.IsOpen ∨ ∃ outcome, phase = .ended outcome := by
  cases phase with
  | ended outcome => exact .inr ⟨outcome, rfl⟩
  | waiting => exact .inl trivial
  | awaiting slots => exact .inl trivial

/-- Where a task stands on a station. -/
def Task.moment (task : Task) (st : Station) : Request.Moment := ⟨st, task.out, task.phase⟩

namespace System

variable {sys : System} {index : Nat}

/-- A poll of an unfinished task that has the gate: one turn of its collection. -/
def advance (sys : System) (index : Nat) (task : Task) (gate : Gate) : System :=
  let moment := task.request.next true (task.moment sys.station)
  sys.settle index task gate moment.station moment.out moment.phase

section Poll

variable {task : Task} (found : sys.tasks[index]? = some task)
include found

theorem poll_resumed {slots : List Slot} (awaiting : task.phase = .awaiting slots) :
    sys.poll index = sys.advance index task sys.gate := by
  obtain ⟨request, out, phase⟩ := task
  subst awaiting
  rw [poll, found]
  rfl

variable (waiting : task.phase = .waiting)
include waiting

theorem poll_refused (cancelled : sys.station.isCancelled task.request.token = true) :
    sys.poll index = ⟨sys.station.record (.ended task.request.number task.request.timestamp),
      sys.gate.leave index,
      sys.tasks.set index { task with phase := .ended (.error .cancelled) }⟩ := by
  obtain ⟨request, out, phase⟩ := task
  subst waiting
  rw [poll, found]
  simp only [ask, Request.turn, cancelled, if_true]
  rfl

theorem poll_entered (calm : sys.station.isCancelled task.request.token = false)
    (granted : (sys.gate.enter index).2 = true) :
    sys.poll index = sys.advance index task (sys.gate.enter index).1 := by
  obtain ⟨request, out, phase⟩ := task
  subst waiting
  rw [poll, found]
  simp only [ask, calm, Bool.false_eq_true, if_false, granted]
  rfl

theorem poll_queued (calm : sys.station.isCancelled task.request.token = false)
    (denied : (sys.gate.enter index).2 = false) :
    sys.poll index = { sys with gate := (sys.gate.enter index).1 } := by
  obtain ⟨request, out, phase⟩ := task
  subst waiting
  have still : sys.tasks.set index ⟨request, out, .waiting⟩ = sys.tasks := by
    obtain ⟨inside, same⟩ := List.getElem?_eq_some_iff.mp found
    rw [← same, List.set_getElem_self]
  rw [poll, found]
  simp only [ask, Request.turn, calm, Bool.false_eq_true, if_false, denied, settle, still]

end Poll

/-- What a poll of a task can do. -/
inductive Polls (sys : System) (index : Nat) : System → Prop
  | idle (nothing : ∀ task, sys.tasks[index]? = some task → ¬ task.phase.IsOpen) :
      Polls sys index sys
  | refused {task : Task} (found : sys.tasks[index]? = some task)
      (waiting : task.phase = .waiting)
      (cancelled : sys.station.isCancelled task.request.token = true) :
      Polls sys index
        { station := sys.station.record (.ended task.request.number task.request.timestamp)
          gate := sys.gate.leave index
          tasks := sys.tasks.set index { task with phase := .ended (.error .cancelled) } }
  | queued {task : Task} (found : sys.tasks[index]? = some task)
      (waiting : task.phase = .waiting)
      (calm : sys.station.isCancelled task.request.token = false)
      (denied : (sys.gate.enter index).2 = false) :
      Polls sys index { sys with gate := (sys.gate.enter index).1 }
  | entered {task : Task} (found : sys.tasks[index]? = some task)
      (waiting : task.phase = .waiting)
      (calm : sys.station.isCancelled task.request.token = false)
      (granted : (sys.gate.enter index).2 = true) :
      Polls sys index (sys.advance index task (sys.gate.enter index).1)
  | resumed {task : Task} {slots : List Slot} (found : sys.tasks[index]? = some task)
      (awaiting : task.phase = .awaiting slots) :
      Polls sys index (sys.advance index task sys.gate)

theorem polls (sys : System) (index : Nat) : sys.Polls index (sys.poll index) := by
  cases found : sys.tasks[index]? with
  | none =>
    rw [poll, found]
    exact .idle fun task no => by rw [found] at no; cases no
  | some task =>
    cases phase : task.phase with
    | ended outcome =>
      rw [poll, found]
      simp only [phase]
      refine .idle fun other same => ?_
      cases found.symm.trans same
      rw [phase]
      exact id
    | awaiting slots =>
      rw [poll_resumed found phase]
      exact .resumed found phase
    | waiting =>
      cases token : sys.station.isCancelled task.request.token with
      | true =>
        rw [poll_refused found phase token]
        exact .refused found phase token
      | false =>
        cases asked : (sys.gate.enter index).2 with
        | true =>
          rw [poll_entered found phase token asked]
          exact .entered found phase token asked
        | false =>
          rw [poll_queued found phase token asked]
          exact .queued found phase token asked

/-! ## Advancing -/

section Advance

variable {task : Task} {gate : Gate} {moment : Request.Moment}
  (turn : task.request.next true (task.moment sys.station) = moment)
include turn

theorem advance_open (unfinished : moment.phase.IsOpen) :
    sys.advance index task gate = ⟨moment.station, gate,
      sys.tasks.set index { task with out := moment.out, phase := moment.phase }⟩ := by
  simp only [advance, turn, settle]
  cases phase : moment.phase with
  | ended outcome => exact absurd unfinished (by rw [phase]; exact id)
  | waiting => rfl
  | awaiting slots => rfl

theorem advance_ended {outcome : Outcome} (ended : moment.phase = .ended outcome) :
    sys.advance index task gate
      = ⟨moment.station.record (.ended task.request.number task.request.timestamp),
        gate.leave index,
        sys.tasks.set index { task with out := moment.out, phase := moment.phase }⟩ := by
  simp only [advance, turn, settle, ended]

end Advance

theorem tasks_advance (sys : System) (index : Nat) (task : Task) (gate : Gate) :
    (sys.advance index task gate).tasks = sys.tasks.set index { task with
      out := (task.request.next true (task.moment sys.station)).out
      phase := (task.request.next true (task.moment sys.station)).phase } := by
  obtain unfinished | ⟨outcome, ended⟩ :=
    (task.request.next true (task.moment sys.station)).phase.open_or_ended
  · rw [advance_open rfl unfinished]
  · rw [advance_ended rfl ended]

theorem gate_advance (sys : System) (index : Nat) (task : Task) (gate : Gate) :
    (sys.advance index task gate).gate = gate ∨
      (sys.advance index task gate).gate = gate.leave index := by
  obtain unfinished | ⟨outcome, ended⟩ :=
    (task.request.next true (task.moment sys.station)).phase.open_or_ended
  · rw [advance_open rfl unfinished]
    exact .inl rfl
  · rw [advance_ended rfl ended]
    exact .inr rfl

/-- With the gate a collection does not wait. -/
theorem next_ne_waiting (request : Request) (moment : Request.Moment) :
    (request.next true moment).phase ≠ .waiting := by
  obtain ⟨st, out, phase⟩ := moment
  cases phase with
  | ended outcome => simp [Request.next, Request.turn]
  | waiting =>
    rw [Request.next, Request.turn]
    split
    · simp
    · rw [if_pos rfl]
      exact request.begin_not_waiting st out
  | awaiting slots =>
    rw [Request.next, Request.turn]
    rcases request.await_open st out slots with ⟨outcome, ended⟩ | ⟨_, slots', _, _, awaiting⟩
    · simp [ended]
    · simp [awaiting]

/-! ## The invariant -/

/-- The gate belongs to a task that has not ended, and every task past the gate
has it. Others wait, each once, and only as long as somebody has the gate. -/
structure Guarded (sys : System) : Prop where
  holder : ∀ i, sys.gate.holder = some i →
    ∃ task, sys.tasks[i]? = some task ∧ task.phase.IsOpen
  inside : ∀ i task slots, sys.tasks[i]? = some task → task.phase = .awaiting slots →
    sys.gate.holder = some i
  waiters : ∀ i ∈ sys.gate.queue, sys.gate.holder ≠ some i ∧
    ∃ task, sys.tasks[i]? = some task ∧ task.phase = .waiting
  distinct : sys.gate.queue.Nodup
  free : sys.gate.holder = none → sys.gate.queue = []

namespace Guarded

theorem ofRequests (start : Station) (requests : List Request) :
    (System.ofRequests start requests).Guarded where
  holder _ holds := nomatch holds
  inside i task slots found awaiting := by
    rw [System.ofRequests, List.getElem?_map] at found
    obtain ⟨request, -, rfl⟩ := Option.map_eq_some_iff.mp found
    cases awaiting
  waiters _ member := nomatch member
  distinct := .nil
  free _ := rfl

/-- At most one task is past the gate. -/
theorem one_inside (guarded : sys.Guarded) {i j : Nat} {a b : Task} {slots slots' : List Slot}
    (atI : sys.tasks[i]? = some a) (past : a.phase = .awaiting slots)
    (atJ : sys.tasks[j]? = some b) (past' : b.phase = .awaiting slots') : i = j :=
  Option.some.inj ((guarded.inside i a slots atI past).symm.trans
    (guarded.inside j b slots' atJ past'))

variable {task task' : Task} {st : Station}

/-- A task ends and leaves the gate. -/
theorem gone (guarded : sys.Guarded) (found : sys.tasks[index]? = some task) {outcome : Outcome}
    (ended : task'.phase = .ended outcome) (st : Station) :
    Guarded ⟨st, sys.gate.leave index, sys.tasks.set index task'⟩ := by
  have present := (List.getElem?_eq_some_iff.mp found).1
  -- what is known of the tasks at other positions
  have others : ∀ i other, i ≠ index → sys.tasks[i]? = some other →
      (sys.tasks.set index task')[i]? = some other := by
    intro i other differs at_
    rw [List.getElem?_set_ne (Ne.symm differs), at_]
  have inside : ∀ i other slots, (sys.tasks.set index task')[i]? = some other →
      other.phase = .awaiting slots → i ≠ index ∧ sys.gate.holder = some i := by
    intro i other slots at_ awaiting
    by_cases self : i = index
    · subst self
      rw [List.getElem?_set_self present] at at_
      cases at_
      rw [ended] at awaiting
      cases awaiting
    · rw [List.getElem?_set_ne (Ne.symm self)] at at_
      exact ⟨self, guarded.inside i other slots at_ awaiting⟩
  by_cases holds : sys.gate.holder = some index
  · rw [Gate.leave_holder holds, Gate.pass]
    have alone : ∀ (i : Nat) (other : Task) (slots : List Slot),
        (sys.tasks.set index task')[i]? = some other → other.phase ≠ .awaiting slots := by
      intro i other slots at_ awaiting
      obtain ⟨differs, holds'⟩ := inside i other slots at_ awaiting
      exact differs (Option.some.inj (holds'.symm.trans holds))
    split
    next empty =>
      exact ⟨nofun, fun i other slots at_ awaiting => absurd awaiting (alone i other slots at_),
        nofun, .nil, fun _ => rfl⟩
    next next rest queue =>
      have distinct := guarded.distinct
      rw [queue, List.nodup_cons] at distinct
      have waits : ∀ i ∈ next :: rest, ∃ other,
          (sys.tasks.set index task')[i]? = some other ∧ other.phase = .waiting := by
        intro i member
        obtain ⟨apart, other, at_, waiting⟩ := guarded.waiters i (queue ▸ member)
        exact ⟨other, others i other (fun same => apart (same ▸ holds)) at_, waiting⟩
      refine ⟨?_, fun i other slots at_ awaiting => absurd awaiting (alone i other slots at_), ?_,
        distinct.2, nofun⟩
      · intro i same
        obtain rfl := Option.some.inj same
        obtain ⟨other, at_, waiting⟩ := waits next List.mem_cons_self
        exact ⟨other, at_, by rw [waiting]; trivial⟩
      · intro i member
        refine ⟨fun same => distinct.1 (Option.some.inj same ▸ member), ?_⟩
        exact waits i (List.mem_cons_of_mem _ member)
  · rw [Gate.leave_other holds]
    refine ⟨?_, fun i other slots at_ awaiting => (inside i other slots at_ awaiting).2, ?_,
      guarded.distinct.erase index, ?_⟩
    · intro i holds'
      obtain ⟨other, at_, unfinished⟩ := guarded.holder i holds'
      exact ⟨other, others i other (fun same => holds (same ▸ holds')) at_, unfinished⟩
    · intro i member
      obtain ⟨differs, member⟩ := (guarded.distinct.mem_erase_iff).mp member
      obtain ⟨apart, other, at_, waiting⟩ := guarded.waiters i member
      exact ⟨apart, other, others i other differs at_, waiting⟩
    · intro none
      simp only [guarded.free none, List.erase_nil]

/-- The holder goes on past the gate. -/
theorem kept (guarded : sys.Guarded) (found : sys.tasks[index]? = some task)
    (holds : sys.gate.holder = some index) (unfinished : task'.phase.IsOpen) (st : Station) :
    Guarded ⟨st, sys.gate, sys.tasks.set index task'⟩ := by
  have present := (List.getElem?_eq_some_iff.mp found).1
  refine ⟨?_, ?_, ?_, guarded.distinct, guarded.free⟩
  · intro i holds'
    obtain rfl := Option.some.inj (holds.symm.trans holds')
    exact ⟨task', List.getElem?_set_self present, unfinished⟩
  · intro i other slots at_ awaiting
    by_cases self : i = index
    · subst self
      exact holds
    · rw [List.getElem?_set_ne (Ne.symm self)] at at_
      exact guarded.inside i other slots at_ awaiting
  · intro i member
    obtain ⟨apart, other, at_, waiting⟩ := guarded.waiters i member
    have differs : index ≠ i := fun same => apart (same ▸ holds)
    exact ⟨apart, other, by rw [List.getElem?_set_ne differs, at_], waiting⟩

/-- A task is let in while nobody else is. -/
theorem taken (guarded : sys.Guarded) (found : sys.tasks[index]? = some task)
    (unfinished : task.phase.IsOpen)
    (allowed : sys.gate.holder = none ∨ sys.gate.holder = some index) :
    Guarded { sys with gate := ⟨some index, sys.gate.queue⟩ } := by
  obtain none | holds := allowed
  · have empty := guarded.free none
    refine ⟨fun i same => ?_, fun i other slots at_ awaiting => ?_, ?_, guarded.distinct, nofun⟩
    · obtain rfl := Option.some.inj same
      exact ⟨task, found, unfinished⟩
    · have holds := guarded.inside i other slots at_ awaiting
      rw [none] at holds
      cases holds
    · intro i member
      simp only [empty] at member
      cases member
  · rw [show (⟨some index, sys.gate.queue⟩ : Gate) = sys.gate by rw [← holds]]
    exact guarded

/-- A task that is not let in joins the waiters. -/
theorem joined (guarded : sys.Guarded) (found : sys.tasks[index]? = some task)
    (waiting : task.phase = .waiting) (denied : (sys.gate.enter index).2 = false) :
    Guarded { sys with gate := (sys.gate.enter index).1 } := by
  obtain ⟨held, differs, gives⟩ := Gate.enter_denied denied
  rw [gives]
  split
  · exact guarded
  next absent =>
    refine ⟨guarded.holder, guarded.inside, ?_, ?_, fun none => absurd none held⟩
    · intro i member
      rcases List.mem_append.mp member with early | late
      · exact guarded.waiters i early
      · obtain rfl := List.mem_singleton.mp late
        exact ⟨differs, task, found, waiting⟩
    · exact List.nodup_append.mpr ⟨guarded.distinct, List.pairwise_singleton _ _, by
        intro a member b last same
        rw [List.mem_singleton.mp last] at same
        exact absent (same ▸ member)⟩

/-- A turn behind the gate, whatever comes of it. -/
theorem advance (guarded : sys.Guarded) (found : sys.tasks[index]? = some task)
    (holds : sys.gate.holder = some index) : (sys.advance index task sys.gate).Guarded := by
  generalize turn : task.request.next true (task.moment sys.station) = moment
  obtain unfinished | ⟨outcome, ended⟩ := moment.phase.open_or_ended
  · rw [advance_open turn unfinished]
    exact guarded.kept found holds unfinished _
  · rw [advance_ended turn ended]
    exact guarded.gone found ended _

theorem poll (guarded : sys.Guarded) (index : Nat) : (sys.poll index).Guarded := by
  have polled := sys.polls index
  generalize sys.poll index = next at polled ⊢
  cases polled with
  | idle nothing => exact guarded
  | refused found waiting cancelled => exact guarded.gone found rfl _
  | queued found waiting calm denied => exact guarded.joined found waiting denied
  | entered found waiting calm granted =>
    obtain ⟨allowed, gives⟩ := Gate.enter_granted guarded.free granted
    have taken := guarded.taken found (by rw [waiting]; trivial) allowed
    rw [gives]
    exact taken.advance found rfl
  | resumed found awaiting => exact guarded.advance found (guarded.inside _ _ _ found awaiting)

theorem play (guarded : sys.Guarded) (moves : List Move) : (sys.play moves).Guarded := by
  induction moves generalizing sys with
  | nil => exact guarded
  | cons move rest ih =>
    cases move with
    | poll index => exact ih (guarded.poll index)
    | deed deed => exact ih ⟨guarded.holder, guarded.inside, guarded.waiters, guarded.distinct,
        guarded.free⟩

end Guarded

/-! ## Waiters -/

/-- A poll does not make the gate forget another task. -/
theorem knows_poll {other : Nat} (knows : sys.gate.Knows index) (differs : other ≠ index) :
    (sys.poll other).gate.Knows index := by
  have polled := sys.polls other
  generalize sys.poll other = next at polled ⊢
  cases polled with
  | idle nothing => exact knows
  | refused found waiting cancelled => exact knows.leave differs
  | queued found waiting calm denied => exact knows.enter differs
  | @entered task found waiting calm granted =>
    obtain same | same := sys.gate_advance other task (sys.gate.enter other).1
    · rw [same]
      exact knows.enter differs
    · rw [same]
      exact (knows.enter differs).leave differs
  | @resumed task slots found awaiting =>
    obtain same | same := sys.gate_advance other task sys.gate
    · rw [same]
      exact knows
    · rw [same]
      exact knows.leave differs

/-- A poll leaves the other tasks as they are. -/
theorem poll_elsewhere (sys : System) {other : Nat} (differs : other ≠ index) :
    (sys.poll other).tasks[index]? = sys.tasks[index]? := by
  have polled := sys.polls other
  generalize sys.poll other = next at polled ⊢
  have advanced : ∀ task gate,
      (sys.advance other task gate).tasks[index]? = sys.tasks[index]? := by
    intro task gate
    rw [tasks_advance, List.getElem?_set_ne differs]
  cases polled with
  | idle nothing => rfl
  | queued found waiting calm denied => rfl
  | refused found waiting cancelled => exact List.getElem?_set_ne differs
  | entered found waiting calm granted => exact advanced _ _
  | resumed found awaiting => exact advanced _ _

/-- A task that was polled and still waits is known to the gate. -/
theorem knows_of_polled {task : Task}
    (found : (sys.poll index).tasks[index]? = some task) (waiting : task.phase = .waiting) :
    (sys.poll index).gate.Knows index := by
  have polled := sys.polls index
  generalize sys.poll index = next at polled found ⊢
  have advanced : ∀ {before : Task} {gate : Gate}, sys.tasks[index]? = some before →
      (sys.advance index before gate).tasks[index]? ≠ some task := by
    intro before gate at_ same
    rw [tasks_advance, List.getElem?_set_self (List.getElem?_eq_some_iff.mp at_).1] at same
    cases same
    exact next_ne_waiting _ _ waiting
  cases polled with
  | idle nothing => exact absurd (by rw [waiting]; trivial) (nothing task found)
  | refused found' waiting' cancelled =>
    rw [List.getElem?_set_self (List.getElem?_eq_some_iff.mp found').1] at found
    cases found
    cases waiting
  | queued found' waiting' calm denied =>
    obtain ⟨-, -, gives⟩ := Gate.enter_denied denied
    rw [gives]
    refine .inr ?_
    split
    next member => exact member
    next => exact List.mem_append_right _ (List.mem_singleton_self index)
  | entered found' waiting' calm granted => exact absurd found (advanced found')
  | resumed found' awaiting => exact absurd found (advanced found')

/-- A task that was polled is remembered as long as it waits. -/
theorem knows_play (moves : List Move)
    (asked : ∀ task, sys.tasks[index]? = some task → task.phase = .waiting →
      sys.gate.Knows index) :
    ∀ task, (sys.play moves).tasks[index]? = some task → task.phase = .waiting →
      (sys.play moves).gate.Knows index := by
  induction moves generalizing sys with
  | nil => exact asked
  | cons move rest ih =>
    refine ih fun task found waiting => ?_
    cases move with
    | deed deed => exact asked task found waiting
    | poll other =>
      by_cases self : other = index
      · subst self
        exact knows_of_polled found waiting
      · rw [System.move, sys.poll_elsewhere self] at found
        exact knows_poll (asked task found waiting) self

/-- Waiters keep their order; new ones go to the end. -/
theorem queue_poll (guarded : sys.Guarded) (index : Nat) :
    (sys.poll index).gate.queue.Sublist (sys.gate.queue ++ [index]) := by
  have leaves : ∀ gate : Gate, (gate.leave index).queue.Sublist gate.queue := by
    intro gate
    by_cases holds : gate.holder = some index
    · rw [Gate.leave_holder holds, Gate.pass]
      split
      next empty => exact List.nil_sublist _
      next next rest queue =>
        rw [queue]
        exact List.sublist_cons_self next rest
    · rw [Gate.leave_other holds]
      exact List.erase_sublist
  have stays : sys.gate.queue.Sublist (sys.gate.queue ++ [index]) := List.sublist_append_left _ _
  have polled := sys.polls index
  generalize sys.poll index = next at polled ⊢
  cases polled with
  | idle nothing => exact stays
  | refused found waiting cancelled => exact (leaves sys.gate).trans stays
  | queued found waiting calm denied =>
    obtain ⟨-, -, gives⟩ := Gate.enter_denied denied
    rw [gives]
    dsimp only
    split
    · exact stays
    · exact List.Sublist.refl _
  | @entered task found waiting calm granted =>
    obtain ⟨-, gives⟩ := Gate.enter_granted guarded.free granted
    obtain same | same := sys.gate_advance index task (sys.gate.enter index).1
    · rw [same, gives]
      exact stays
    · rw [same, gives]
      exact (leaves _).trans stays
  | @resumed task slots found awaiting =>
    obtain same | same := sys.gate_advance index task sys.gate
    · rw [same]
      exact stays
    · rw [same]
      exact (leaves _).trans stays

/-- A holder that ends hands the gate to the first waiter. -/
theorem pass_of_ended (guarded : sys.Guarded) (holds : sys.gate.holder = some index) {task : Task}
    {outcome : Outcome} (found : (sys.poll index).tasks[index]? = some task)
    (ended : task.phase = .ended outcome) : (sys.poll index).gate = sys.gate.pass := by
  obtain ⟨before, at_, unfinished⟩ := guarded.holder index holds
  have present := (List.getElem?_eq_some_iff.mp at_).1
  have polled := sys.polls index
  generalize sys.poll index = next at polled found ⊢
  have advanced : (sys.advance index before sys.gate).tasks[index]? = some task →
      (sys.advance index before sys.gate).gate = sys.gate.pass := by
    intro same
    rw [tasks_advance, List.getElem?_set_self present] at same
    cases same
    rw [advance_ended rfl ended]
    exact Gate.leave_holder holds
  cases polled with
  | idle nothing => exact absurd unfinished (nothing _ at_)
  | refused found' waiting cancelled => exact Gate.leave_holder holds
  | queued found' waiting calm denied => exact absurd holds (Gate.enter_denied denied).2.1
  | entered found' waiting calm granted =>
    cases at_.symm.trans found'
    obtain ⟨-, gives⟩ := Gate.enter_granted guarded.free granted
    rw [gives] at found ⊢
    rw [show (⟨some index, sys.gate.queue⟩ : Gate) = sys.gate by rw [← holds]] at found ⊢
    exact advanced found
  | resumed found' awaiting =>
    cases at_.symm.trans found'
    exact advanced found

end System

end GaugeExporter
