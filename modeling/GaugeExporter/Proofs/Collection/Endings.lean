import GaugeExporter.Proofs.Collection.Concurrent

/-!
# How a collection ends

`Request.ending` reads off the journal which of five ways a collection ends: what
counts is which events came before the token was cancelled, and whether a
callback failed.  `ends_in_one_way` shows that these events are those of the
collection's acts, that outcome and output are those of this ending, for every
course, and that a collection whose bodies do not suspend for good does end.  The precedence of a failure over a cancellation is in the
order in which `ending` asks; the proof goes through the cases of `Conduct`.
-/

namespace GaugeExporter

open Station (Since)

/-! ## Progress -/

/-- The body does not suspend for good. -/
def Body.Settles : Body → Prop
  | .script _ rest => .pending ∉ rest
  | _ => True

/-- An awaited body that settles. -/
def Slot.Settles : Slot → Prop
  | .awaited body => body.Settles
  | .completed => True

theorem Station.pollScript_settles {context : Station.Context} {st mid : Station}
    {rest : List Action} {body : Body} (settles : .pending ∉ rest)
    (suspended : st.pollScript context rest = (mid, .suspended body)) :
    body.Settles ∧ body.remaining ≤ rest.length := by
  fun_induction pollScript context st rest with
  | case1 st => cases suspended
  | case2 st rest =>
    cases suspended
    exact ⟨fun late => settles (List.mem_cons_of_mem _ late), Nat.le_refl _⟩
  | case3 st rest => exact absurd List.mem_cons_self settles
  | case4 => cases suspended
  | case5 st action rest _ _ next done ih =>
    obtain ⟨later, less⟩ := ih (fun late => settles (List.mem_cons_of_mem _ late)) suspended
    exact ⟨later, Nat.le_succ_of_le less⟩

theorem Station.poll_settles {token : TokenId} {st mid : Station} {body body' : Body}
    (settles : body.Settles) (suspended : st.poll token body = (mid, .suspended body')) :
    body'.Settles ∧ body'.remaining < body.remaining := by
  cases body with
  | script run rest =>
    obtain ⟨later, less⟩ := pollScript_settles settles suspended
    exact ⟨later, Nat.lt_succ_of_le less⟩
  | failed text => cases suspended
  | openFile path series =>
    cases suspended
    exact ⟨trivial, Nat.lt_succ_self 1⟩
  | readFile path series =>
    simp only [poll] at suspended
    split at suspended <;> cases suspended

namespace Request

variable {request : Request}

theorem pollOne_settles {index : Nat} {st mid : Station} {body body' : Body}
    (settles : body.Settles) (suspended : request.pollOne index st body = (mid, .suspended body')) :
    body'.Settles ∧ body'.remaining < body.remaining := by
  unfold pollOne at suspended
  split at suspended
  · cases suspended
  · cases suspended
  next polled =>
    cases suspended
    exact Station.poll_settles settles polled

/-- A round brought the unfinished bodies closer to their end. -/
structure Closer (slots slots' : List Slot) : Prop where
  settle : ∀ slot ∈ slots', slot.Settles
  turns : System.phaseTurns (.awaiting slots') ≤ System.phaseTurns (.awaiting slots)
  strict : slots'.all isCompleted = false →
    System.phaseTurns (.awaiting slots') < System.phaseTurns (.awaiting slots)

theorem Closer.cons {slot slot' : Slot} {slots slots' : List Slot} (closer : Closer slots slots')
    (settles : slot'.Settles) (turns : System.slotTurns slot' ≤ System.slotTurns slot)
    (strict : isCompleted slot' = true ∨ System.slotTurns slot' < System.slotTurns slot) :
    Closer (slot :: slots) (slot' :: slots') := by
  obtain ⟨settle, le, lt⟩ := closer
  simp only [System.phaseTurns] at le lt
  refine ⟨fun other member => ?_, ?_, fun unfinished => ?_⟩
  · rcases List.mem_cons.mp member with rfl | member
    · exact settles
    · exact settle other member
  · simp only [System.phaseTurns, List.foldr_cons]
    omega
  · simp only [System.phaseTurns, List.foldr_cons]
    rcases strict with ended | less
    · have := lt (by simpa [ended] using unfinished)
      omega
    · omega

theorem pollFrom_closer {index : Nat} {st mid : Station} {slots slots' : List Slot}
    (settle : ∀ slot ∈ slots, slot.Settles)
    (went : request.pollFrom index st slots = (mid, slots', none)) : Closer slots slots' := by
  fun_induction pollFrom request index st slots generalizing slots' with
  | case1 index st => cases went; exact ⟨by simp, Nat.le_refl _, by simp⟩
  | case2 index st rest st' rest' failure polled ih =>
    cases went
    exact (ih (fun slot member => settle slot (List.mem_cons_of_mem _ member)) polled).cons trivial
      (Nat.le_refl _) (.inl rfl)
  | case3 => cases went
  | case4 index st body rest next done st' rest' failure polled ih =>
    cases went
    exact (ih (fun slot member => settle slot (List.mem_cons_of_mem _ member)) polled).cons trivial
      (Nat.zero_le _) (.inl rfl)
  | case5 index st body rest next body' suspended st' rest' failure polled ih =>
    cases went
    obtain ⟨settles, less⟩ := pollOne_settles (settle _ List.mem_cons_self) suspended
    exact (ih (fun slot member => settle slot (List.mem_cons_of_mem _ member)) polled).cons settles
      (Nat.le_of_lt less) (.inr less)

/-- After a round a collection has ended, or a body has suspended. -/
theorem await_open (st : Station) (out : Bytes) (slots : List Slot) :
    (∃ outcome, (request.await st out slots).2.2 = .ended outcome) ∨
      ∃ mid slots', request.pollFrom 0 st slots = (mid, slots', none) ∧
        slots'.all isCompleted = false ∧ (request.await st out slots).2.2 = .awaiting slots' := by
  unfold Request.await
  split
  next => exact .inl ⟨_, rfl⟩
  next =>
    split
    next => exact .inl ⟨_, rfl⟩
    next mid slots' went =>
      cases all : slots'.all isCompleted with
      | true =>
        rcases request.finish_cases mid out with ⟨_, gives⟩ | ⟨_, _, _, _, _, _, gives, _⟩
        · exact .inl ⟨_, by rw [if_pos rfl, gives]⟩
        · exact .inl ⟨_, by rw [if_pos rfl, gives]⟩
      | false => exact .inr ⟨mid, slots', went, all, rfl⟩

/-- A collection whose awaited bodies settle has ended after as many turns as
they need. -/
theorem Course.settled {st : Station} {out : Bytes} {slots : List Slot} {turns : Nat}
    {moment : Moment} (settle : ∀ slot ∈ slots, slot.Settles)
    (course : request.Course ⟨st, out, .awaiting slots⟩ turns moment) :
    (∃ outcome, moment.phase = .ended outcome) ∨
      ∃ slots', moment.phase = .awaiting slots' ∧ (∀ slot ∈ slots', slot.Settles) ∧
        turns + System.phaseTurns (.awaiting slots') ≤ System.phaseTurns (.awaiting slots) := by
  induction course with
  | rest => exact .inr ⟨slots, rfl, settle, by omega⟩
  | aside course unfinished aside ih => exact ih
  | @turn turns moment course unfinished granted ih =>
    rcases ih with ⟨outcome, ended⟩ | ⟨slots', awaiting, settle', bound⟩
    · rw [ended] at unfinished
      exact unfinished.elim
    · rw [next, awaiting]
      rcases await_open moment.station moment.out slots' with
        ⟨outcome, ended⟩ | ⟨mid, slots'', went, unfinished', awaiting'⟩
      · exact .inl ⟨outcome, ended⟩
      · have closer := pollFrom_closer settle' went
        have less := closer.strict unfinished'
        exact .inr ⟨slots'', awaiting', closer.settle, by omega⟩

/-! ## Endings -/

variable (request)

/-- The token was cancelled, and the event did not come before that. -/
def Forestalled (st : Station) (events : List Event) (event : Event) : Prop :=
  (st.isCancelled request.token = true ∨ .cancelled request.token ∈ events) ∧
    ¬ request.Heard st events event

instance (st : Station) (events : List Event) (event : Event) :
    Decidable (request.Forestalled st events event) := by
  unfold Forestalled Heard
  infer_instance

/-- The failure that the collection entered. -/
def failure? (events : List Event) : Option Failure :=
  events.findSome? fun
    | .failed number cause => if number = request.number then some cause else none
    | _ => none

/-- The ways in which a collection ends. -/
inductive Ending where
  -- Cancelled before it obtained the gate.
  | refused
  -- A callback failed.
  | failed (cause : Failure)
  -- Cancelled before the first metric was begun.
  | abandoned
  -- Cancelled between this metric and the next.
  | cut (metric : MetricId)
  | complete
  deriving DecidableEq, Repr

/-- The ending of a collection that is cancelled in front of a metric. -/
def Ending.before : MetricId → Ending
  | 0 => .abandoned
  | m + 1 => .cut m

/-- How a collection ends that entered these events, on a registry with so many
metrics. -/
def ending (start : Station) (events : List Event) (metrics : Nat) : Ending :=
  if request.Forestalled start events (.entered request.number) then .refused
  else
    match request.failure? events with
    | some cause => .failed cause
    | none =>
      if request.Forestalled start events (.prepared request.number) then .abandoned
      else
        match (List.range metrics).find? fun m =>
          request.Forestalled start events (.began request.number m) with
        | some m => .before m
        | none => .complete

/-- What the collection gives. -/
def Ending.outcome : Ending → Outcome
  | .failed cause => .error (.callback cause)
  | .complete => .ok ()
  | _ => .error .cancelled

/-- What the collection puts behind the content of its output. -/
def Ending.output (timestamp : Int) (r : Registry) : Ending → Bytes
  | .cut m => r.blocks timestamp (m + 1)
  | .complete => r.document timestamp
  | _ => []

variable {request} {start : Station} {events : List Event} {metrics : Nat}

theorem Heard.not_forestalled {event : Event} (heard : request.Heard start events event) :
    ¬ request.Forestalled start events event :=
  fun forestalled => forestalled.2 heard

theorem Forestalled.of_absent {event : Event} {st : Station} (since : Since start st events)
    (cancelled : st.isCancelled request.token = true) (absent : event ∉ events) :
    request.Forestalled start events event :=
  ⟨(since.tokens _).mp cancelled, fun heard => absent heard.mem⟩

theorem failure?_eq_none (never : ∀ cause, .failed request.number cause ∉ events) :
    request.failure? events = none := by
  rw [failure?, List.findSome?_eq_none_iff]
  intro event member
  cases event with
  | failed number cause =>
    by_cases mine : number = request.number
    · subst mine
      exact absurd member (never cause)
    · exact if_neg mine
  | _ => rfl

theorem failure?_eq_some {cause : Failure} (member : .failed request.number cause ∈ events)
    (only : ∀ other, .failed request.number other ∈ events → other = cause) :
    request.failure? events = some cause := by
  cases found : request.failure? events with
  | none =>
    rw [failure?, List.findSome?_eq_none_iff] at found
    have := found _ member
    simp at this
  | some other =>
    obtain ⟨event, member', gives⟩ := List.exists_of_findSome?_eq_some found
    cases event with
    | failed number cause' =>
      by_cases mine : number = request.number
      · subst mine
        simp only [if_pos, Option.some.injEq] at gives
        rw [only other (gives ▸ member')]
      · simp [mine] at gives
    | _ => cases gives

theorem ending_of_failed {cause : Failure}
    (entered : request.Heard start events (.entered request.number))
    (failed : request.failure? events = some cause) :
    request.ending start events metrics = .failed cause := by
  rw [ending, if_neg entered.not_forestalled, failed]

theorem ending_of_unprepared (entered : request.Heard start events (.entered request.number))
    (never : request.failure? events = none)
    (unprepared : request.Forestalled start events (.prepared request.number)) :
    request.ending start events metrics = .abandoned := by
  rw [ending, if_neg entered.not_forestalled, never]
  exact if_pos unprepared

/-- Where the blocks end, if the collection came to write any. -/
theorem ending_of_written {written : Nat} (bound : written ≤ metrics)
    (entered : request.Heard start events (.entered request.number))
    (never : request.failure? events = none)
    (prepared : request.Heard start events (.prepared request.number))
    (heard : ∀ m < written, request.Heard start events (.began request.number m))
    (stopped : written < metrics →
      request.Forestalled start events (.began request.number written)) :
    request.ending start events metrics
      = if written = metrics then .complete else .before written := by
  rw [ending, if_neg entered.not_forestalled, never]
  simp only
  rw [if_neg prepared.not_forestalled]
  by_cases all : written = metrics
  · have none : (List.range metrics).find? (fun m =>
        decide (request.Forestalled start events (.began request.number m))) = none := by
      rw [List.find?_eq_none]
      intro m member
      simpa using (heard m (all ▸ List.mem_range.mp member)).not_forestalled
    rw [none, if_pos all]
  · have less : written < metrics := Nat.lt_of_le_of_ne bound all
    have found : (List.range metrics).find? (fun m =>
        decide (request.Forestalled start events (.began request.number m))) = some written := by
      rw [List.find?_range_eq_some]
      refine ⟨decide_eq_true (stopped less), List.mem_range.mpr less, fun m below => ?_⟩
      simpa using (heard m below).not_forestalled
    rw [found, if_neg all]

/-- Outcome and output of a collection are those of its ending.  If it was
refused the gate it has done nothing. -/
structure Accounted (request : Request) (start : Station) (events : List Event) (st : Station)
    (out : Bytes) (outcome : Outcome) : Prop where
  outcome : outcome = (request.ending start events st.registry.metricCount).outcome
  output : out = request.buffer ++ (request.ending start events st.registry.metricCount).output
    request.timestamp st.registry
  nothing : request.ending start events st.registry.metricCount = .refused →
    request.own events = []

variable {st : Station} {out : Bytes}

theorem accounted_refused (since : Since start st events) (nothing : request.own events = [])
    (cancelled : st.isCancelled request.token = true) :
    request.Accounted start events st request.buffer (.error .cancelled) := by
  have absent : .entered request.number ∉ events := by
    rw [← request.mem_own_of rfl, nothing]
    exact List.not_mem_nil
  have refused : request.ending start events st.registry.metricCount = .refused :=
    if_pos (.of_absent since cancelled absent)
  exact ⟨by rw [refused]; rfl, by rw [refused]; exact (List.append_nil _).symm, fun _ => nothing⟩

theorem accounted_failed {cause : Failure}
    (entered : request.Heard start events (.entered request.number))
    (failed : .failed request.number cause ∈ events)
    (only : ∀ other, .failed request.number other ∈ events → other = cause) :
    request.Accounted start events st request.buffer (.error (.callback cause)) := by
  have ending : request.ending start events st.registry.metricCount = .failed cause :=
    ending_of_failed entered (failure?_eq_some failed only)
  exact ⟨by rw [ending]; rfl, by rw [ending]; exact (List.append_nil _).symm,
    fun refused => by rw [ending] at refused; cases refused⟩

theorem accounted_unprepared (since : Since start st events)
    (entered : request.Heard start events (.entered request.number))
    (never : ∀ cause, .failed request.number cause ∉ events)
    (absent : .prepared request.number ∉ events)
    (cancelled : st.isCancelled request.token = true) :
    request.Accounted start events st request.buffer (.error .cancelled) := by
  have ending : request.ending start events st.registry.metricCount = .abandoned :=
    ending_of_unprepared entered (failure?_eq_none never) (.of_absent since cancelled absent)
  exact ⟨by rw [ending]; rfl, by rw [ending]; exact (List.append_nil _).symm,
    fun refused => by rw [ending] at refused; cases refused⟩

theorem accounted_written {mid : Station} {before after : List Event} {written : Nat}
    {outcome : Outcome} (since : Since start mid before)
    (entered : request.Heard start (before ++ after) (.entered request.number))
    (never : ∀ cause, .failed request.number cause ∉ before ++ after)
    (unbegun : ∀ m, .began request.number m ∉ before)
    (wrote : request.Written mid request.buffer written st out outcome after) :
    request.Accounted start (before ++ after) st out outcome := by
  have notBegun : .began request.number written ∉ before ++ after := by
    rw [List.mem_append, not_or]
    refine ⟨unbegun written, ?_⟩
    rw [← request.mem_own_of rfl, wrote.own]
    simp
  have ending := ending_of_written wrote.bound entered (failure?_eq_none never)
    (wrote.prepared.since since) (fun m below => (wrote.heard m below).since since)
  obtain ⟨rfl, all, text⟩ | ⟨rfl, less, cancelled, text⟩ := wrote.outcome
  · have ending := ending fun less => absurd all (Nat.ne_of_lt less)
    rw [if_pos all] at ending
    exact ⟨by rw [ending]; rfl, by rw [ending, text]; rfl,
      fun refused => by rw [ending] at refused; cases refused⟩
  · have ending := ending fun _ => .of_absent (since.trans wrote.since) cancelled notBegun
    rw [if_neg (Nat.ne_of_lt less)] at ending
    cases written <;>
      exact ⟨by rw [ending]; rfl, by rw [ending, text]; rfl,
        fun refused => by rw [ending] at refused; cases refused⟩

/-! ## Endings of courses -/

/-- Behind the calls a collection has entered nothing but its entrance, the runs
and the calls. -/
theorem Conduct.mem_called {gate mid called : Station} {before sync calls rest : List Event}
    {ran : Nat} (nothing : request.own before = [])
    (entered : request.Entered gate mid ran none sync) (calling : request.Called mid called calls)
    (event : Event) (mine : event.collection? = some request.number)
    (late : event ≠ .entered request.number ∧ (∀ i, event ≠ .ran request.number i) ∧
      ∀ i, event ≠ .called request.number i) :
    event ∈ before ++ (sync ++ (calls ++ rest)) ↔ event ∈ rest := by
  obtain ⟨notEntered, notRan, notCalled⟩ := late
  have inRest : event ∈ request.own rest ↔ event ∈ rest := request.mem_own_of mine
  rw [← request.mem_own_of mine, ← inRest]
  simp only [own_append, nothing, entered.own, calling.own, List.nil_append, List.mem_append,
    List.mem_cons, List.mem_map, List.mem_range, Option.map_none, Option.toList_none,
    List.append_nil]
  constructor
  · rintro ((same | ⟨i, _, same⟩) | ⟨i, _, same⟩ | later)
    · exact absurd same notEntered
    · exact absurd same.symm (notRan i)
    · exact absurd same.symm (notCalled i)
    · exact later
  · exact fun later => .inr (.inr later)

theorem Conduct.accounted {outcome : Outcome} (since : Since start st events)
    (conduct : request.Conduct start events st out (.ended outcome)) :
    request.Accounted start events st out outcome := by
  cases conduct with
  | refused nothing cancelled kept =>
    subst kept
    exact accounted_refused since nothing cancelled
  | @stopped gate before after ran cause split prior nothing entered kept =>
    subst kept split
    have failures : ∀ other, .failed request.number other ∈ before ++ after ↔ other = cause := by
      intro other
      rw [← request.mem_own_of rfl, own_append, nothing, entered.own]
      simp
    exact accounted_failed (entered.heard.since prior) ((failures cause).mpr rfl)
      fun other => (failures other).mp
  | @called gate mid called before sync calls rest ran _ split prior nothing entered calling later
      standing =>
    subst split
    have heard := (entered.heard.append (calls ++ rest)).since prior
    have failures : ∀ cause, .failed request.number cause ∈ before ++ (sync ++ (calls ++ rest)) ↔
        .failed request.number cause ∈ rest := fun cause =>
      mem_called nothing entered calling _ rfl ⟨nofun, nofun, nofun⟩
    cases standing with
    | cancelled polls _ cancelled kept =>
      subst kept
      refine accounted_unprepared since heard (fun cause member => ?_) ?_ cancelled
      · rw [failures, ← request.mem_own_of rfl] at member
        cases (polls _ member).failed
      · rw [mem_called nothing entered calling (.prepared request.number) rfl
          ⟨nofun, nofun, nofun⟩, ← request.mem_own_of rfl]
        exact fun member => PollEvent.not_prepared (polls _ member)
    | failed polls failed _ kept =>
      subst kept
      refine accounted_failed heard ((failures _).mpr failed) fun other member => ?_
      rw [failures, ← request.mem_own_of rfl] at member
      exact (Option.some.inj (polls _ member).failed).symm
    | @written polled writes ready w _ cut polling polls completed calm wrote =>
      subst cut
      have reached : Since start ready (before ++ (sync ++ (calls ++ polled))) :=
        prior.trans (entered.since.trans (calling.since.trans polling))
      have regroup : before ++ (sync ++ (calls ++ (polled ++ writes)))
          = before ++ (sync ++ (calls ++ polled)) ++ writes := by
        simp only [List.append_assoc]
      have unbegun : ∀ m, .began request.number m ∉ before ++ (sync ++ (calls ++ polled)) := by
        intro m member
        rw [mem_called nothing entered calling (.began request.number m) rfl
          ⟨nofun, nofun, nofun⟩, ← request.mem_own_of rfl] at member
        exact PollEvent.not_began m (polls _ member)
      have never : ∀ cause,
          .failed request.number cause ∉ before ++ (sync ++ (calls ++ (polled ++ writes))) := by
        intro cause member
        rw [failures, ← request.mem_own_of rfl, own_append, wrote.own] at member
        cases List.mem_append.mp member with
        | inl early => cases (polls _ early).failed
        | inr late => simp at late
      rw [regroup] at heard never ⊢
      exact accounted_written reached heard never unbegun wrote

/-- A collection that has not ended has written nothing and comes closer to its
end: with a cancelled token its next turn is the last, with the gate it waits no
longer, and bodies that settle are awaited for so many turns only. -/
structure Advances (request : Request) (moment : Moment) : Prop where
  kept : moment.out = request.buffer
  cancelled : moment.station.isCancelled request.token = true → ∀ granted,
    (request.next granted moment).phase = .ended (.error .cancelled)
  granted : moment.phase = .waiting → (request.next true moment).phase ≠ .waiting
  settled : ∀ slots, moment.phase = .awaiting slots → (∀ slot ∈ slots, slot.Settles) →
    ∀ turns later, request.Course moment turns later → System.phaseTurns moment.phase < turns →
      ∃ outcome, later.phase = .ended outcome

theorem begin_not_waiting (st : Station) (out : Bytes) :
    (request.begin st out).2.2 ≠ .waiting := by
  have finished : ∀ st, (request.finish st out).2.2 ≠ .waiting := by
    intro st
    obtain ⟨_, gives⟩ | ⟨_, _, _, _, _, _, gives, _⟩ := request.finish_cases st out <;>
      simp [gives]
  unfold Request.begin
  simp only
  split
  · simp
  · split
    · exact finished _
    · obtain ⟨outcome, ended⟩ | ⟨_, slots, _, _, awaiting⟩ := @await_open request
        (request.callFrom 0 _ _).1 out (request.callFrom 0 _ _).2
      · rw [ended]
        simp
      · rw [awaiting]
        simp

theorem Led.advances {moment : Moment} (led : request.Led start moment)
    (unfinished : moment.phase.IsOpen) : request.Advances moment := by
  obtain ⟨events, since, conduct⟩ := led
  obtain ⟨st, out, phase⟩ := moment
  refine ⟨?_, fun cancelled granted => ?_, fun waiting => ?_, ?_⟩
  · cases conduct with
    | waiting nothing kept => exact kept
    | refused => exact unfinished.elim
    | stopped => exact unfinished.elim
    | called split before nothing entered calling later standing =>
      cases standing with
      | awaiting _ _ kept => exact kept
      | _ => exact unfinished.elim
  · cases phase with
    | waiting => rw [next, Request.turn, if_pos cancelled]
    | awaiting slots => rw [next, Request.turn, Request.await, if_pos cancelled]
    | ended outcome => exact unfinished.elim
  · simp only at waiting
    subst waiting
    simp only [next, Request.turn, if_pos]
    split
    · simp
    · exact begin_not_waiting st out
  · intro slots awaiting settle turns later course enough
    simp only at awaiting enough
    subst awaiting
    obtain ended | ⟨slots', _, _, bound⟩ := course.settled settle
    · exact ended
    · omega

/-- However turns of a collection and the doings of others follow one another,
and whenever its token is cancelled: the events of the collection are those of
its acts, where a failure is what a callback or a poll gave.  The collection
leaves the content of its output in front, and if it has ended, then in the one
way that its events tell; otherwise it has written nothing and goes on towards
its end. -/
theorem ends_in_one_way {turns : Nat} {moment : Moment}
    (course : request.Course (request.first start) turns moment) :
    ∃ events, Since start moment.station events ∧ request.Performed start events moment ∧
      request.buffer <+: moment.out ∧
      (∀ outcome, moment.phase = .ended outcome →
        request.Accounted start events moment.station moment.out outcome) ∧
      (moment.phase.IsOpen → request.Advances moment) := by
  have led := course.led
  obtain ⟨events, since, conduct⟩ := course.led
  refine ⟨events, since, course.performed since, ?_, fun outcome ended => ?_, led.advances⟩
  · obtain ⟨st, out, phase⟩ := moment
    cases phase with
    | ended outcome => exact (conduct.accounted since).output ▸ List.prefix_append _ _
    | waiting => exact (led.advances trivial).kept ▸ List.prefix_refl _
    | awaiting slots => exact (led.advances trivial).kept ▸ List.prefix_refl _
  · rw [ended] at conduct
    exact conduct.accounted since

/-- A request whose token is cancelled while the first metric is written. -/
def interrupted : Request :=
  { timestamp := 0, token := 0, buffer := [80],
    outside := fun journal => journal.back? == some (.began 0 0) }

/-- A station with two metrics and callbacks that count a series up: one when it runs, the
other when it is called and again when its body goes on. -/
def counting : Station :=
  { registry :=
      { metrics := #[⟨"first", none, [0]⟩, ⟨"second", none, []⟩]
        series := #[⟨0, [], none, .ofInt 0⟩]
        syncCallbacks := [.script 0 [.add 0 (.ofInt 1)]]
        asyncCallbacks := [.script 1 [.add 0 (.ofInt 1)] [.yield, .add 0 (.ofInt 1)]] }
    seriesNumbers := #[0], metricNumbers := #[0, 1], runs := #[0, 0] }

/-- The interrupted collection, suspended in the body. -/
def halfway : Moment := interrupted.next true (interrupted.first counting)

/-- Behind its callbacks the collection is cut after the first of two metrics. -/
theorem interrupted_is_cut :
    halfway.phase.IsOpen ∧
      (interrupted.next true halfway).phase = .ended (.error .cancelled) ∧
      (interrupted.next true halfway).station.registry.value 0 = .ofInt 3 ∧
      ∃ events, Since counting (interrupted.next true halfway).station events ∧
        interrupted.Performed counting events (interrupted.next true halfway) ∧
        interrupted.Accounted counting events (interrupted.next true halfway).station
          (interrupted.next true halfway).out (.error .cancelled) := by
  have unfinished : halfway.phase.IsOpen := trivial
  have ended : (interrupted.next true halfway).phase = .ended (.error .cancelled) :=
    (@Task.outcome?_eq_some ⟨interrupted, [], _⟩ _).mp (by decide +kernel)
  have asked : interrupted.Course (interrupted.first counting) 0 (interrupted.first counting) :=
    .rest
  have suspended : interrupted.Course (interrupted.first counting) 1 halfway :=
    asked.turn trivial true
  obtain ⟨events, since, performed, -, accounted, -⟩ :=
    ends_in_one_way (suspended.turn unfinished true)
  exact ⟨unfinished, ended, by decide +kernel, events, since, performed, accounted _ ended⟩

end Request

end GaugeExporter
