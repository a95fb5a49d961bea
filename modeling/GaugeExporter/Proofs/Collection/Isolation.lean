import Mathlib.Data.List.Induction
import GaugeExporter.Proofs.Collection.Exclusion

/-!
# Concurrent collections are serialized

Whatever the schedule, what a collection does behind the gate is what it does
alone from the moment at which it obtained the gate, with the same deeds of
other parties in between (`Isolated`).  The ingredient is that a running
collection holds the gate: a poll of another task then changes nothing but the
queue and, if that task is refused, notes its end (`Running.move`).  In the
journal the work of one collection never stands between work of another
(`Unmixed`).
-/

namespace GaugeExporter

open Station (Since Background)

/-! ## Work in the journal -/

/-- The collection that is at work.  A collection can end without having worked. -/
def Event.worker? : Event → Option Nat
  | .ended .. => none
  | event => event.collection?

/-- The collections at work, entry by entry. -/
def workers (events : List Event) : List Nat := events.filterMap Event.worker?

/-- Nobody works between two pieces of work of another. -/
def Unmixed (line : List Nat) : Prop := ∀ a b, [a, b, a].Sublist line → a = b

theorem workers_append (before after : List Event) :
    workers (before ++ after) = workers before ++ workers after := List.filterMap_append

/-- The end of a collection is no work. -/
theorem workers_ended (events : List Event) (number : Nat) (timestamp : Int) :
    workers (events ++ [.ended number timestamp]) = workers events := by
  rw [workers_append]
  exact List.append_nil _

theorem Event.collection?_of_worker? {event : Event} {number : Nat}
    (works : event.worker? = some number) : event.collection? = some number := by
  cases event <;> first | exact works | cases works

theorem sublist_of_concat {early : List Nat} {a b : Nat}
    (between : [a, b].Sublist (early ++ [a])) (differs : b ≠ a) : [a, b].Sublist early := by
  have backwards := between.reverse
  rw [List.reverse_append] at backwards
  cases backwards with
  | cons _ back => exact List.reverse_sublist.mp back
  | cons_cons => exact absurd rfl differs

/-- Somebody goes on who worked last, or who has not worked before. -/
theorem Unmixed.append {line : List Nat} {number : Nat} (unmixed : Unmixed line)
    (last : line.getLast? = some number ∨ number ∉ line) (times : Nat) :
    Unmixed (line ++ List.replicate times number) := by
  intro a b between
  obtain ⟨front, back, split, inLine, inNew⟩ := List.sublist_append_iff.mp between
  have new : ∀ c ∈ back, c = number := fun c member =>
    (List.mem_replicate.mp (inNew.subset member)).2
  -- how much of it is old
  match front, split with
  | [], split =>
    subst split
    rw [new a (by simp), new b (by simp)]
  | [_], split =>
    simp only [List.cons_append, List.nil_append, List.cons.injEq] at split
    obtain ⟨rfl, rfl⟩ := split
    rw [new a (by simp), new b (by simp)]
  | [_, _], split =>
    simp only [List.cons_append, List.nil_append, List.cons.injEq] at split
    obtain ⟨rfl, rfl, rfl⟩ := split
    obtain rfl := new a (by simp)
    obtain ended | absent := last
    · obtain ⟨early, rfl⟩ := List.getLast?_eq_some_iff.mp ended
      by_contra differs
      have inEarly := sublist_of_concat inLine (Ne.symm differs)
      exact differs (unmixed a b (inEarly.append (List.Sublist.refl [a])))
    · exact absurd (inLine.subset List.mem_cons_self) absent
  | [_, _, _], split =>
    simp only [List.cons_append, List.nil_append, List.cons.injEq] at split
    obtain ⟨rfl, rfl, rfl, -⟩ := split
    exact unmixed a b inLine
  | _ :: _ :: _ :: _ :: _, split => simp at split

namespace Request

/-- Between two moments nobody worked but collections with a number. -/
theorem workers_of_asides {st st' : Station} {number : Nat}
    (asides : ∀ other : Request, other.number ≠ number → other.Aside st st') :
    ∃ events times, Since st st' events ∧ workers events = List.replicate times number := by
  obtain ⟨events, since, -⟩ := asides { number := number + 1, timestamp := 0, token := 0 }
    (Nat.succ_ne_self number)
  refine ⟨events, (workers events).length, since, List.eq_replicate_iff.mpr ⟨rfl, ?_⟩⟩
  intro other member
  obtain ⟨event, inside, works⟩ := List.mem_filterMap.mp member
  by_contra differs
  obtain ⟨events', since', foreign⟩ :=
    asides { number := other, timestamp := 0, token := 0 } differs
  have same : events' = events :=
    List.append_cancel_left (since'.journal.symm.trans since.journal)
  subst same
  have mine : event ∈ ({ number := other, timestamp := 0, token := 0 } : Request).own events' :=
    (mem_own _).mpr ⟨inside, Event.collection?_of_worker? works⟩
  rw [foreign] at mine
  cases mine

end Request

/-! ## Nobody works in between -/

namespace System

variable {start : Station} {requests : List Request} {sys : System} {index : Nat} {task : Task}
  {events : List Event}

/-- Where the conduct of an unfinished task has brought it. -/
theorem Keeps.led (keeps : Keeps start requests sys) (found : sys.tasks[index]? = some task)
    (unfinished : task.phase.IsOpen) :
    ∃ events, Since start sys.station events ∧
      task.request.Conduct start events sys.station task.out task.phase := by
  obtain ⟨turns, ⟨station, out, phase⟩, course, rfl, rfl, now⟩ := keeps.follows index task found
  obtain rfl := now unfinished
  exact course.led

theorem Keeps.kept (keeps : Keeps start requests sys) (found : sys.tasks[index]? = some task)
    (waiting : task.phase = .waiting) : task.out = task.request.buffer := by
  obtain ⟨events, since, conduct⟩ := keeps.led found (by rw [waiting]; trivial)
  rw [waiting] at conduct
  cases conduct with
  | waiting nothing kept => exact kept
  | called _ _ _ _ _ _ standing => cases standing

/-- A task that waits has done nothing. -/
theorem Keeps.idle (keeps : Keeps start requests sys) (found : sys.tasks[index]? = some task)
    (waiting : task.phase = .waiting) (since : Since start sys.station events) :
    task.request.own events = [] := by
  obtain ⟨events', since', conduct⟩ := keeps.led found (by rw [waiting]; trivial)
  obtain rfl : events' = events := List.append_cancel_left (since'.journal.symm.trans since.journal)
  rw [waiting] at conduct
  cases conduct with
  | waiting nothing kept => exact nothing
  | called _ _ _ _ _ _ standing => cases standing

/-- A task past the gate has worked. -/
theorem Keeps.works (keeps : Keeps start requests sys) (found : sys.tasks[index]? = some task)
    {slots : List Slot} (awaiting : task.phase = .awaiting slots)
    (since : Since start sys.station events) : task.request.number ∈ workers events := by
  obtain ⟨events', since', conduct⟩ := keeps.led found (by rw [awaiting]; trivial)
  obtain rfl : events' = events := List.append_cancel_left (since'.journal.symm.trans since.journal)
  rw [awaiting] at conduct
  cases conduct with
  | @called gate mid called before sync calls rest ran _ split prior nothing entered =>
    have inSync : .entered task.request.number ∈ task.request.own sync := by
      rw [entered.own]
      exact List.mem_cons_self
    refine List.mem_filterMap.mpr ⟨.entered task.request.number, ?_, rfl⟩
    rw [split]
    simp [(task.request.mem_own.mp inSync).1]

/-- So far nobody has worked between two pieces of work of another, and the task
past the gate was the last to work. -/
def Orderly (start : Station) (sys : System) : Prop :=
  ∃ events, Since start sys.station events ∧ Unmixed (workers events) ∧
    ∀ (i : Nat) (task : Task) (slots : List Slot), sys.tasks[i]? = some task →
      task.phase = .awaiting slots → (workers events).getLast? = some task.request.number

theorem Orderly.ofRequests (start : Station) (requests : List Request) :
    Orderly start (System.ofRequests start requests) := by
  refine ⟨[], .refl start, fun a b between => ?_, fun i task slots found awaiting => ?_⟩
  · cases between
  · have holds := (Guarded.ofRequests start requests).inside i task slots found awaiting
    cases holds

theorem Orderly.unmixed (orderly : Orderly start sys) :
    ∃ events, Since start sys.station events ∧ Unmixed (workers events) := by
  obtain ⟨events, since, unmixed, -⟩ := orderly
  exact ⟨events, since, unmixed⟩

theorem getLast?_append_replicate {line : List Nat} {number times : Nat}
    (last : line.getLast? = some number ∨ number ∉ line)
    (works : number ∈ line ++ List.replicate times number) :
    (line ++ List.replicate times number).getLast? = some number := by
  cases times with
  | zero =>
    rw [List.replicate_zero, List.append_nil] at works ⊢
    exact last.resolve_right (fun absent => absent works)
  | succ times => rw [List.replicate_succ', ← List.append_assoc, List.getLast?_concat]

/-- A turn of the task with the gate, when no other task is past it. -/
theorem orderly_advance {gate : Gate} (found : sys.tasks[index]? = some task)
    (keeps : Keeps start requests (sys.advance index task gate))
    (since : Since start sys.station events) (unmixed : Unmixed (workers events))
    (last : (workers events).getLast? = some task.request.number ∨
      task.request.number ∉ workers events)
    (alone : ∀ (i : Nat) (other : Task) (slots : List Slot), sys.tasks[i]? = some other →
      other.phase = .awaiting slots → i = index) :
    Orderly start (sys.advance index task gate) := by
  have present := (List.getElem?_eq_some_iff.mp found).1
  generalize turn : task.request.next true (task.moment sys.station) = moment
  have asides : ∀ other : Request, other.number ≠ task.request.number →
      other.Aside sys.station moment.station := by
    intro other differs
    rw [← turn]
    exact Request.turn_aside differs true _ _ _
  obtain ⟨more, times, since', mine⟩ := Request.workers_of_asides asides
  have unmixed' : Unmixed (workers (events ++ more)) := by
    rw [workers_append, mine]
    exact unmixed.append last times
  obtain unfinished | ⟨outcome, ended⟩ := moment.phase.open_or_ended
  · rw [advance_open turn unfinished] at keeps ⊢
    refine ⟨events ++ more, since.trans since', unmixed', fun i other slots at_ awaiting => ?_⟩
    by_cases self : i = index
    · subst self
      have works := keeps.works at_ awaiting (since.trans since')
      rw [List.getElem?_set_self present] at at_
      cases at_
      rw [workers_append, mine] at works ⊢
      exact getLast?_append_replicate last works
    · rw [List.getElem?_set_ne (Ne.symm self)] at at_
      exact absurd (alone i other slots at_ awaiting) self
  · rw [advance_ended turn ended]
    refine ⟨events ++ more ++ [.ended task.request.number task.request.timestamp],
      (since.trans since').trans (Station.record_since _ (by simp)), ?_,
      fun i other slots at_ awaiting => ?_⟩
    · rw [workers_ended]
      exact unmixed'
    · by_cases self : i = index
      · subst self
        rw [List.getElem?_set_self present] at at_
        cases at_
        rw [ended] at awaiting
        cases awaiting
      · rw [List.getElem?_set_ne (Ne.symm self)] at at_
        exact absurd (alone i other slots at_ awaiting) self

theorem Orderly.poll (orderly : Orderly start sys) (guarded : sys.Guarded)
    (keeps : Keeps start requests sys) (apart : Apart requests) (index : Nat) :
    Orderly start (sys.poll index) := by
  obtain ⟨events, since, unmixed, lasts⟩ := orderly
  have later := keeps.poll apart index
  have polled := sys.polls index
  generalize sys.poll index = next at later polled ⊢
  cases polled with
  | idle nothing => exact ⟨events, since, unmixed, lasts⟩
  | queued found waiting calm denied => exact ⟨events, since, unmixed, lasts⟩
  | @refused task found waiting cancelled =>
    refine ⟨events ++ [.ended task.request.number task.request.timestamp],
      since.trans (Station.record_since _ (by simp)), ?_, fun i other slots at_ awaiting => ?_⟩
    · rw [workers_ended]
      exact unmixed
    · by_cases self : i = index
      · subst self
        rw [List.getElem?_set_self (List.getElem?_eq_some_iff.mp found).1] at at_
        cases at_
        cases awaiting
      · rw [List.getElem?_set_ne (Ne.symm self)] at at_
        rw [workers_ended]
        exact lasts i other slots at_ awaiting
  | @entered task found waiting calm granted =>
    obtain ⟨allowed, -⟩ := Gate.enter_granted guarded.free granted
    have fresh : task.request.number ∉ workers events := by
      intro member
      obtain ⟨event, inside, works⟩ := List.mem_filterMap.mp member
      have mine := (task.request.mem_own).mpr ⟨inside, Event.collection?_of_worker? works⟩
      rw [keeps.idle found waiting since] at mine
      cases mine
    refine orderly_advance found later since unmixed (.inr fresh) ?_
    intro i other slots at_ awaiting
    have holds := guarded.inside i other slots at_ awaiting
    obtain none | self := allowed
    · rw [none] at holds
      cases holds
    · exact Option.some.inj (holds.symm.trans self)
  | @resumed task slots found awaiting =>
    exact orderly_advance found later since unmixed (.inl (lasts _ _ _ found awaiting))
      fun i other slots' at_ awaiting' => guarded.one_inside at_ awaiting' found awaiting

theorem Orderly.play (orderly : Orderly start sys) (guarded : sys.Guarded)
    (keeps : Keeps start requests sys) (apart : Apart requests) (moves : List Move) :
    Orderly start (sys.play moves) := by
  induction moves generalizing sys with
  | nil => exact orderly
  | cons move rest ih =>
    cases move with
    | poll index =>
      exact ih (orderly.poll guarded keeps apart index) (guarded.poll index)
        (keeps.poll apart index)
    | deed deed =>
      refine ih ?_ (guarded.play [.deed deed]) (keeps.move apart (.deed deed))
      obtain ⟨events, since, unmixed, lasts⟩ := orderly
      obtain ⟨more, since', none⟩ := deed.background sys.station
      have quiet : workers more = [] := by
        refine List.filterMap_eq_nil_iff.mpr fun event member => ?_
        cases works : event.worker? with
        | none => rfl
        | some number =>
          have mine := Event.collection?_of_worker? works
          rw [none event member] at mine
          cases mine
      refine ⟨events ++ more, since.trans since', ?_⟩
      rw [workers_append, quiet, List.append_nil]
      exact ⟨unmixed, lasts⟩

/-! ## Running alone -/

variable {request : Request} {moment : Request.Moment}

/-- A task is past the gate, and the station is as its collection left it. -/
structure Running (sys : System) (index : Nat) (request : Request) (moment : Request.Moment) :
    Prop where
  found : sys.tasks[index]? = some ⟨request, moment.out, moment.phase⟩
  past : ∃ slots, moment.phase = .awaiting slots
  station : sys.station = moment.station

/-- A task has just ended, and the station is as its collection left it, but for
the note of the end. -/
structure Over (sys : System) (index : Nat) (request : Request) (moment : Request.Moment) :
    Prop where
  found : sys.tasks[index]? = some ⟨request, moment.out, moment.phase⟩
  ended : ∃ outcome, moment.phase = .ended outcome
  station : sys.station = moment.station.record (.ended request.number request.timestamp)

/-- The steps of a collection alone are the moves of a schedule, without the
polls of others.  Only the ends of others may still be noted. -/
structure Sees (index number : Nat) (moves : List Move) (steps : List Step) : Prop where
  same : steps.filter (!·.isNoted) = moves.flatMap (Move.seenBy index)
  others : ∀ other timestamp, .noted other timestamp ∈ steps → other ≠ number

theorem Sees.append {number : Nat} {before after : List Move} {steps steps' : List Step}
    (early : Sees index number before steps) (late : Sees index number after steps') :
    Sees index number (before ++ after) (steps ++ steps') where
  same := by rw [List.filter_append, early.same, late.same, List.flatMap_append]
  others other timestamp member :=
    (List.mem_append.mp member).elim (early.others other timestamp) (late.others other timestamp)

theorem Sees.nil (index number : Nat) : Sees index number [] [] := ⟨rfl, nofun⟩

/-- A turn with the gate leaves the collection running or ends it. -/
theorem advance_runs (gate : Gate) (found : sys.tasks[index]? = some task)
    (turn : task.request.next true (task.moment sys.station) = moment) :
    (sys.advance index task gate).Running index task.request moment ∨
      (sys.advance index task gate).Over index task.request moment := by
  have present := (List.getElem?_eq_some_iff.mp found).1
  obtain unfinished | ⟨outcome, ended⟩ := moment.phase.open_or_ended
  · rw [advance_open turn unfinished]
    refine .inl ⟨List.getElem?_set_self present, ?_, rfl⟩
    cases phase : moment.phase with
    | awaiting slots => exact ⟨slots, rfl⟩
    | ended outcome => exact absurd unfinished (by rw [phase]; exact id)
    | waiting =>
      rw [← turn] at phase
      exact absurd phase (next_ne_waiting _ _)
  · rw [advance_ended turn ended]
    exact .inr ⟨List.getElem?_set_self present, ⟨outcome, ended⟩, rfl⟩

/-- One move, while a collection is running: a turn of the collection, a deed,
or a poll of another task, which at most notes an end. -/
theorem Running.move (running : sys.Running index request moment) (guarded : sys.Guarded)
    (keeps : Keeps start requests sys) (apart : Apart requests) (move : Move) :
    ∃ steps, Sees index request.number [move] steps ∧
      ((sys.move move).Running index request (request.play moment steps) ∨
        (sys.move move).Over index request (request.play moment steps)) := by
  obtain ⟨found, ⟨slots, awaiting⟩, same⟩ := running
  have holds := guarded.inside _ _ slots found awaiting
  cases move with
  | deed deed =>
    refine ⟨[.deed deed], ⟨rfl, by simp⟩, .inl ⟨found, ⟨slots, awaiting⟩, ?_⟩⟩
    exact congrArg deed.run same
  | poll other =>
    by_cases self : other = index
    · subst self
      refine ⟨[.turn true], ⟨by simp [Move.seenBy, Step.isNoted], by simp⟩, ?_⟩
      have turn : request.next true (Task.moment ⟨request, moment.out, moment.phase⟩ sys.station)
          = request.play moment [.turn true] := by
        rw [Task.moment, same]
        rfl
      rw [System.move, poll_resumed found awaiting]
      exact advance_runs _ found turn
    · have elsewhere := sys.poll_elsewhere self
      have polled := sys.polls other
      simp only [System.move]
      have nothing : Sees index request.number [.poll other] [] :=
        ⟨by simp [Move.seenBy, self], by simp⟩
      generalize sys.poll other = next at polled elsewhere ⊢
      cases polled with
      | idle nothing' => exact ⟨[], nothing, .inl ⟨found, ⟨slots, awaiting⟩, same⟩⟩
      | queued found' waiting calm denied =>
        exact ⟨[], nothing, .inl ⟨found, ⟨slots, awaiting⟩, same⟩⟩
      | @refused task found' waiting cancelled =>
        refine ⟨[.noted task.request.number task.request.timestamp], ⟨?_, ?_⟩,
          .inl ⟨elsewhere.trans found, ⟨slots, awaiting⟩, ?_⟩⟩
        · simp [Move.seenBy, Step.isNoted, self]
        · intro number timestamp member
          cases List.mem_singleton.mp member
          exact keeps.differ apart found' found self
        · exact congrArg (Station.record · _) same
      | entered found' waiting calm granted =>
        obtain ⟨none | mine, -⟩ := Gate.enter_granted guarded.free granted
        · rw [none] at holds
          cases holds
        · exact absurd (Option.some.inj (mine.symm.trans holds)) self
      | resumed found' awaiting' =>
        exact absurd (guarded.one_inside found' awaiting' found awaiting) self

/-- What has ended stays as it is. -/
theorem play_of_ended {outcome : Outcome} (found : sys.tasks[index]? = some task)
    (ended : task.phase = .ended outcome) (moves : List Move) :
    (sys.play moves).tasks[index]? = some task := by
  induction moves generalizing sys with
  | nil => exact found
  | cons move rest ih =>
    refine ih ?_
    cases move with
    | deed deed => exact found
    | poll other =>
      by_cases self : other = index
      · subst self
        have still : sys.poll other = sys := by
          rw [poll, found]
          simp only [ended]
        rw [move, still]
        exact found
      · exact (sys.poll_elsewhere self).trans found

/-- A task that obtains the gate at a poll behaves from then on, until it ends,
as its collection does alone from this moment, and so does the station. -/
def Isolated (sys : System) (index : Nat) (request : Request) (after : List Move) : Prop :=
  ∃ during rest steps, after = during ++ rest ∧ Sees index request.number during steps ∧
    let alone := request.play (request.next true (request.first sys.station)) steps
    ((sys.poll index).play after).tasks[index]? = some ⟨request, alone.out, alone.phase⟩ ∧
    (rest = [] ∧ ((sys.poll index).play during).Running index request alone ∨
      ((sys.poll index).play during).Over index request alone)

theorem Running.play (running : sys.Running index request moment) (guarded : sys.Guarded)
    (keeps : Keeps start requests sys) (apart : Apart requests) (after : List Move) :
    ∃ during rest steps, after = during ++ rest ∧ Sees index request.number during steps ∧
      (sys.play after).tasks[index]? = some ⟨request, (request.play moment steps).out,
        (request.play moment steps).phase⟩ ∧
      (rest = [] ∧ (sys.play during).Running index request (request.play moment steps) ∨
        (sys.play during).Over index request (request.play moment steps)) := by
  induction after generalizing sys moment with
  | nil => exact ⟨[], [], [], rfl, .nil _ _, running.found, .inl ⟨rfl, running⟩⟩
  | cons move more ih =>
    obtain ⟨steps, sees, going | done⟩ := running.move guarded keeps apart move
    · obtain ⟨during, rest, steps', split, sees', found, gives⟩ :=
        ih going (guarded.play [move]) (keeps.move apart move)
      refine ⟨move :: during, rest, steps ++ steps', by rw [split]; rfl, sees.append sees', ?_⟩
      rw [Request.play_append]
      exact ⟨found, gives⟩
    · refine ⟨[move], more, steps, rfl, sees, ?_, .inr done⟩
      obtain ⟨outcome, ended⟩ := done.ended
      exact play_of_ended done.found ended more

/-- A task obtains the gate when it is polled now. -/
structure Obtains (sys : System) (index : Nat) (task : Task) : Prop where
  found : sys.tasks[index]? = some task
  waiting : task.phase = .waiting
  calm : sys.station.isCancelled task.request.token = false
  granted : (sys.gate.enter index).2 = true

theorem Obtains.isolated (obtains : sys.Obtains index task) (guarded : sys.Guarded)
    (keeps : Keeps start requests sys) (apart : Apart requests) (after : List Move) :
    sys.Isolated index task.request after := by
  obtain ⟨found, waiting, calm, granted⟩ := obtains
  have first : task.moment sys.station = task.request.first sys.station := by
    rw [Task.moment, keeps.kept found waiting, waiting]
    rfl
  have began := advance_runs (sys.gate.enter index).1 found
    (congrArg (task.request.next true) first)
  rw [← poll_entered found waiting calm granted] at began
  obtain running | done := began
  · exact running.play (guarded.poll index) (keeps.poll apart index) apart after
  · refine ⟨[], after, [], rfl, .nil _ _, ?_, .inr done⟩
    obtain ⟨outcome, ended⟩ := done.ended
    exact play_of_ended done.found ended after

/-- A task whose token is cancelled while it waits ends without having done
anything, and leaves the queue or passes on the gate that it was handed. -/
structure Refused (start : Station) (sys : System) (index : Nat) (task : Task) : Prop where
  idle : ∃ events, Since start sys.station events ∧ task.request.own events = []
  kept : task.out = task.request.buffer
  station : (sys.poll index).station
    = sys.station.record (.ended task.request.number task.request.timestamp)
  tasks : (sys.poll index).tasks
    = sys.tasks.set index { task with phase := .ended (.error .cancelled) }
  gate : (sys.poll index).gate = if sys.gate.holder = some index then sys.gate.pass
    else ⟨sys.gate.holder, sys.gate.queue.erase index⟩

theorem Keeps.refused (keeps : Keeps start requests sys) (found : sys.tasks[index]? = some task)
    (waiting : task.phase = .waiting)
    (cancelled : sys.station.isCancelled task.request.token = true) :
    Refused start sys index task := by
  obtain ⟨events, since, -⟩ := keeps.led found (by rw [waiting]; trivial)
  have polled := poll_refused found waiting cancelled
  refine ⟨⟨events, since, keeps.idle found waiting since⟩, keeps.kept found waiting, ?_, ?_, ?_⟩
  · rw [polled]
  · rw [polled]
  · rw [polled]
    split
    next holds => exact Gate.leave_holder holds
    next other => exact Gate.leave_other other

/-- A waiting task that waits no longer obtained the gate at this poll, or its
token was cancelled. -/
theorem left_waiting {later : Task} (found : sys.tasks[index]? = some task)
    (waiting : task.phase = .waiting) (foundLater : (sys.poll index).tasks[index]? = some later)
    (past : later.phase ≠ .waiting) :
    sys.Obtains index task ∨ sys.station.isCancelled task.request.token = true := by
  cases token : sys.station.isCancelled task.request.token with
  | true => exact .inr rfl
  | false =>
    cases asked : (sys.gate.enter index).2 with
    | true => exact .inl ⟨found, waiting, token, asked⟩
    | false =>
      rw [poll_queued found waiting token asked] at foundLater
      cases found.symm.trans foundLater
      exact absurd waiting past

/-! ## Serialization -/

/-- Requests are numbered by position. -/
def numbered (requests : List Request) : List Request :=
  requests.mapIdx fun number request => { request with number }

theorem apart_numbered (requests : List Request) : Apart (numbered requests) := by
  have numbers : (numbered requests).map Request.number = List.range requests.length := by
    refine List.ext_getElem (by simp [numbered]) fun i inside inside' => ?_
    simp [numbered]
  rw [Apart, numbers]
  exact List.nodup_range

/-- The system that a schedule leads to. -/
def reached (start : Station) (requests : List Request) (moves : List Move) : System :=
  (ofRequests start (numbered requests)).play moves

/-- At one of the polls of a task it obtained the gate, or its token was
cancelled. -/
def Answered (start : Station) (requests : List Request) (moves : List Move) (index : Nat) : Prop :=
  ∃ before after task, moves = before ++ .poll index :: after ∧
    (reached start requests before).tasks[index]? = some task ∧ task.phase = .waiting ∧
    ((reached start requests before).Obtains index task ∨
      (reached start requests before).station.isCancelled task.request.token = true)

theorem answered (start : Station) (requests : List Request) (moves : List Move) {later : Task}
    (found : (reached start requests moves).tasks[index]? = some later)
    (past : later.phase ≠ .waiting) : Answered start requests moves index := by
  induction moves using List.reverseRecOn generalizing later with
  | nil =>
    rw [reached, play, List.foldl_nil, ofRequests, List.getElem?_map] at found
    obtain ⟨request, -, rfl⟩ := Option.map_eq_some_iff.mp found
    exact absurd rfl past
  | append_singleton before last ih =>
    have step : reached start requests (before ++ [last])
        = (reached start requests before).move last := by
      rw [reached, play_append]
      rfl
    rw [step] at found
    -- the task has left off waiting before the last move, or just now
    have earlier : ∀ task, (reached start requests before).tasks[index]? = some task →
        task.phase ≠ .waiting → Answered start requests (before ++ [last]) index := by
      intro task at_ past'
      obtain ⟨front, back, first, split, rest⟩ := ih at_ past'
      exact ⟨front, back ++ [last], first, by rw [split, List.append_assoc]; rfl, rest⟩
    cases last with
    | deed deed => exact earlier later found past
    | poll other =>
      by_cases self : other = index
      · subst self
        cases at_ : (reached start requests before).tasks[other]? with
        | none =>
          rw [move, poll, at_] at found
          cases at_.symm.trans found
        | some task =>
          by_cases waiting : task.phase = .waiting
          · exact ⟨before, [], task, rfl, at_, waiting, left_waiting at_ waiting found past⟩
          · exact earlier task at_ waiting
      · rw [move, poll_elsewhere _ self] at found
        exact earlier later found past

/-- What is true of concurrent collections after a schedule. -/
structure Serialized (start : Station) (requests : List Request) (moves : List Move) : Prop where
  guarded : (reached start requests moves).Guarded
  -- At most one is past the gate and has not ended.
  oneInside : ∀ (i j : Nat) (a b : Task) (slots slots' : List Slot),
    (reached start requests moves).tasks[i]? = some a → a.phase = .awaiting slots →
    (reached start requests moves).tasks[j]? = some b → b.phase = .awaiting slots' → i = j
  -- Their work does not interleave.
  unmixed : ∃ events, Since start (reached start requests moves).station events ∧
    Unmixed (workers events)
  -- Each behaves as it does alone from the moment at which it obtained the gate.
  isolated : ∀ before index after task, moves = before ++ .poll index :: after →
    (reached start requests before).Obtains index task →
    (reached start requests before).Isolated index task.request after
  -- Each that waits no longer has obtained the gate, or its token was cancelled.
  accounted : ∀ index later, (reached start requests moves).tasks[index]? = some later →
    later.phase ≠ .waiting → Answered start requests moves index
  -- One whose token is cancelled while it waits gives up, and the gate goes on.
  refused : ∀ before index after task, moves = before ++ .poll index :: after →
    (reached start requests before).tasks[index]? = some task → task.phase = .waiting →
    (reached start requests before).station.isCancelled task.request.token = true →
    Refused start (reached start requests before) index task
  -- Whoever ends with the gate hands it to the first waiter.
  released : ∀ before index after task outcome, moves = before ++ .poll index :: after →
    (reached start requests before).gate.holder = some index →
    ((reached start requests before).poll index).tasks[index]? = some task →
    task.phase = .ended outcome →
    ((reached start requests before).poll index).gate = (reached start requests before).gate.pass
  -- Waiters keep their order, and none that has asked is forgotten.
  inOrder : ∀ before index after, moves = before ++ .poll index :: after →
    ((reached start requests before).poll index).gate.queue.Sublist
      ((reached start requests before).gate.queue ++ [index])
  remembered : ∀ before index after task, moves = before ++ .poll index :: after →
    (reached start requests moves).tasks[index]? = some task → task.phase = .waiting →
    (reached start requests moves).gate.Knows index

/-- However concurrent collections are polled, whatever other parties do in
between and whichever tokens are cancelled: the collections are serialized. -/
theorem collections_serialized (start : Station) (requests : List Request) (moves : List Move) :
    Serialized start requests moves := by
  have apart := apart_numbered requests
  have guarded : ∀ moves, (reached start requests moves).Guarded :=
    (Guarded.ofRequests start (numbered requests)).play
  have keeps : ∀ moves, Keeps start (numbered requests) (reached start requests moves) :=
    (keeps_ofRequests start (numbered requests)).play apart
  refine ⟨guarded moves, fun i j a b slots slots' => (guarded moves).one_inside, ?_, ?_,
    fun index later => answered start requests moves, ?_, ?_, ?_, ?_⟩
  · exact ((Orderly.ofRequests start _).play (.ofRequests _ _) (keeps_ofRequests _ _) apart
      moves).unmixed
  · rintro before index after task - obtains
    exact obtains.isolated (guarded before) (keeps before) apart after
  · rintro before index after task - found waiting cancelled
    exact (keeps before).refused found waiting cancelled
  · rintro before index after task outcome - holds found ended
    exact pass_of_ended (guarded before) holds found ended
  · rintro before index after -
    exact queue_poll (guarded before) index
  · rintro before index after task rfl found waiting
    rw [reached, play_append, play_cons] at found ⊢
    exact knows_play after (fun task => knows_of_polled) task found waiting

end System

end GaugeExporter
