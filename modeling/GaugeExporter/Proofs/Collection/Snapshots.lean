import GaugeExporter.Proofs.Collection.Concurrent

/-!
# Which callbacks and metrics take part in a collection

A collection takes three lists at three moments: the synchronous callbacks when
it obtains the gate, the asynchronous ones when the synchronous ones have run,
and the metrics when all bodies have completed.  What callbacks register in
between joins a list only before its moment.  `takes_part` says so for every
course, on top of `Conduct` and of the acts that the entries stand for, whatever
the callbacks do.
-/

namespace GaugeExporter

open Station (Since)

namespace Request

variable {request : Request} {start : Station}

/-- A collection whose synchronous callbacks have run without a failure: the
asynchronous ones that are registered by then are called in order, then their
bodies and no others are polled, unless the token has been cancelled.  Once all
of them have completed the metrics that are registered by then are written. -/
structure Joined (request : Request) (mid called : Station) (calls polls writes : List Event)
    (failure : Option Failure) (moment : Moment) : Prop where
  calling : request.Called mid called calls
  kinds : ∀ event ∈ request.own polls,
    PollEvent request.number 0 mid.registry.asyncCallbacks.length failure event
  quiet : called.isCancelled request.token = true →
    request.own (polls ++ writes) = [] ∧ moment.phase = .ended (.error .cancelled)
  written : (request.own writes = [] ∧ moment.out = request.buffer) ∨
    (∀ i < mid.registry.asyncCallbacks.length, .completed request.number i ∈ polls) ∧
      ∃ ready written outcome, Since called ready polls ∧ moment.phase = .ended outcome ∧
        request.Written ready request.buffer written moment.station moment.out outcome writes

theorem Standing.joined {mid called : Station} {calls rest : List Event} {moment : Moment}
    (calling : request.Called mid called calls) (later : Since called moment.station rest)
    (standing : request.Standing mid.registry.asyncCallbacks.length called request.buffer rest
      moment.station moment.out moment.phase) :
    ∃ polls writes failure, rest = polls ++ writes ∧
      request.Joined mid called calls polls writes failure moment := by
  obtain ⟨st, out, phase⟩ := moment
  cases standing with
  | awaiting polls calm kept =>
    refine ⟨rest, [], none, (List.append_nil _).symm, calling, polls.kinds, ?_, .inl ⟨rfl, kept⟩⟩
    intro cancelled
    rw [calm] at cancelled
    cases cancelled
  | cancelled kinds quiet cancelled kept =>
    refine ⟨rest, [], none, (List.append_nil _).symm, calling, kinds, ?_, .inl ⟨rfl, kept⟩⟩
    intro already
    rw [List.append_nil]
    exact ⟨quiet already, rfl⟩
  | failed kinds failed calm kept =>
    refine ⟨rest, [], _, (List.append_nil _).symm, calling, kinds, ?_, .inl ⟨rfl, kept⟩⟩
    intro cancelled
    rw [calm] at cancelled
    cases cancelled
  | @written polls writes ready w outcome split polling kinds completed calm wrote =>
    refine ⟨polls, writes, none, split, calling, kinds, ?_,
      .inr ⟨completed, ready, w, outcome, polling, rfl, wrote⟩⟩
    intro cancelled
    rw [(polling.calm calm).1] at cancelled
    cases cancelled

/-- A collection has entered.  From then on it runs the synchronous callbacks
that were registered at that moment, in order, up to the first that fails; a
failure is the last thing it does, otherwise it goes on as `Joined` says. -/
def TookPart (request : Request) (start : Station) (events : List Event) (moment : Moment) :
    Prop :=
  ∃ before gate sync mid rest ran failure,
    events = before ++ (sync ++ rest) ∧ Since start gate before ∧ request.own before = [] ∧
    request.Entered gate mid ran failure sync ∧ Since mid moment.station rest ∧
    match failure with
    | some cause => rest = [] ∧ moment.phase = .ended (.error (.callback cause))
    | none => ∃ called calls polls writes cause, rest = calls ++ (polls ++ writes) ∧
        request.Joined mid called calls polls writes cause moment

/-- The events of a collection are those of its acts, and they tell which callbacks and
metrics took part. -/
theorem takes_part {turns : Nat} {moment : Moment}
    (course : request.Course (request.first start) turns moment) :
    ∃ events, Since start moment.station events ∧ request.Performed start events moment ∧
      (request.own events = [] ∨ request.TookPart start events moment) := by
  obtain ⟨events, since, conduct⟩ := course.led
  refine ⟨events, since, course.performed since, ?_⟩
  obtain ⟨st, out, phase⟩ := moment
  cases conduct with
  | waiting nothing kept => exact .inl nothing
  | refused nothing cancelled kept => exact .inl nothing
  | @stopped gate before after ran cause split prior nothing entered kept =>
    refine .inr ⟨before, gate, after, st, [], ran, some cause, ?_, prior, nothing, entered,
      .refl st, rfl, rfl⟩
    rw [split, List.append_nil]
  | @called gate mid called before sync calls rest ran _ split prior nothing entered calling later
      standing =>
    obtain ⟨polls, writes, cause, cut, joined⟩ :=
      @Standing.joined request mid called calls rest ⟨st, out, phase⟩ calling later standing
    subst cut
    exact .inr ⟨before, gate, sync, mid, calls ++ (polls ++ writes), ran, none, split, prior,
      nothing, entered, calling.since.trans later, called, calls, polls, writes, cause, rfl, joined⟩

/-- A request without an output so far. -/
def once : Request := { timestamp := 0, token := 0 }

/-- A station whose only callback registers a callback of either kind and a metric.  The
synchronous one would fail; the other makes a series of the metric and counts it up. -/
def growing : Station :=
  { registry :=
      { syncCallbacks := [.script 0
          [.onSync [.fail "late" none], .metric "late" none,
            .onAsync [.create (.metric 0) [] (some (.ofInt 1))] [.add 0 (.ofInt 1)]]] }
    runs := #[0] }

/-- Where its only turn leaves the collection. -/
def grown : Moment := once.next true (once.first growing)

/-- The asynchronous callback and the metric take part at once, the synchronous
callback does not. -/
theorem growing_takes_part :
    let events : List Event := [.entered 0, .ran 0 0, .called 0 0, .polled 0 0, .completed 0 0,
      .prepared 0, .began 0 0]
    grown.phase = .ended (.ok ()) ∧ grown.station.registry.value 0 = .ofInt 2 ∧
      once.Performed growing events grown ∧ once.TookPart growing events grown := by
  intro events
  have ended : grown.phase = .ended (.ok ()) :=
    (@Task.outcome?_eq_some ⟨once, [], _⟩ _).mp (by decide +kernel)
  have journal : grown.station.journal.toList = events := by decide +kernel
  have asked : once.Course (once.first growing) 0 (once.first growing) := .rest
  have course : once.Course (once.first growing) 1 grown := asked.turn trivial true
  obtain ⟨events', since, performed, happened⟩ := takes_part course
  have gained := since.journal
  rw [journal, show growing.journal.toList = [] from rfl, List.nil_append] at gained
  subst gained
  refine ⟨ended, by decide +kernel, performed, ?_⟩
  cases happened with
  | inl nothing => cases nothing
  | inr part => exact part

end Request

end GaugeExporter
