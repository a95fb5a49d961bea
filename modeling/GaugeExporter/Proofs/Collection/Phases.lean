import GaugeExporter.Proofs.Collection.Acts
import GaugeExporter.Proofs.Exposition.Buffer

/-!
# The phases of a collection

What each phase consists of, and what it gives.  A collection enters an event
before it does anything, so the events of its own (`Request.own`) tell what it
did in which order; `Request.Heard` says that an event came before the
collection's token was cancelled.  There is one lemma for each loop:
`runSyncFrom_ranThrough`, `callFrom_acts`, `pollFrom_acts` and `write_wrote`.
Together they show that a turn consists of acts (`turn_goes`).
-/

namespace GaugeExporter

open Binary (Double)
open Station (Since Background)

namespace Request

variable (request : Request)

/-- The event came before the token was cancelled. -/
def Heard (st : Station) (events : List Event) (event : Event) : Prop :=
  st.isCancelled request.token = false ∧
    event ∈ events.takeWhile (· ≠ .cancelled request.token)

variable {request}

namespace Heard

variable {st st' : Station} {events more : List Event} {event : Event}

theorem mem (heard : request.Heard st events event) : event ∈ events :=
  (List.takeWhile_sublist _).subset heard.2

theorem append (heard : request.Heard st events event) (more : List Event) :
    request.Heard st (events ++ more) event :=
  ⟨heard.1, by
    rw [List.takeWhile_append]
    split
    · exact List.mem_append_left _ heard.mem
    · exact heard.2⟩

/-- Seen from an earlier moment nothing changes as long as the token was not
cancelled in between. -/
theorem since {before : List Event} (heard : request.Heard st' events event)
    (since : Since st st' before) : request.Heard st (before ++ events) event := by
  obtain ⟨calm, absent⟩ := since.calm heard.1
  refine ⟨calm, ?_⟩
  rw [List.takeWhile_append_of_pos]
  · exact List.mem_append_right _ heard.2
  · intro other member
    exact decide_eq_true fun same => absent (same ▸ member)

end Heard

/-- What is marked under a token that is not cancelled is heard. -/
theorem heard_mark {st : Station} (calm : st.isCancelled request.token = false) (event : Event)
    (tail : List Event) (noCancellation : event.collection?.isSome) :
    request.Heard st (event :: tail) event := by
  refine ⟨calm, ?_⟩
  rw [List.takeWhile_cons_of_pos]
  · exact List.mem_cons_self
  · exact decide_eq_true fun same => by subst same; cases noCancellation

/-! ## Synchronous callbacks -/

theorem runOne_act {st : Station} {slots : List Slot} {index : Nat} {callback : SyncCallback}
    (registered : st.registry.syncCallbacks[index]? = some callback) :
    request.Act ⟨st, slots⟩
      (.ran request.number index ::
        ((request.runOne index st callback).2.map (Event.failed request.number)).toList)
      ⟨(request.runOne index st callback).1, slots⟩ := by
  unfold runOne
  split
  next mid failure gave => exact .broke registered gave
  next mid gave => exact .ran registered gave

/-- The station after callbacks were run one after another, whatever they
gave. -/
def afterRuns (request : Request) (index : Nat) : Station → List SyncCallback → Station
  | st, [] => st
  | st, callback :: rest => afterRuns request (index + 1) (request.runOne index st callback).1 rest

/-- What the callback at a position gives when those before it have run. -/
def resultAt (request : Request) (index : Nat) (st : Station) (callbacks : List SyncCallback)
    (i : Nat) : Option Failure :=
  callbacks[i]?.bind fun callback =>
    (request.runOne (index + i) (request.afterRuns index st (callbacks.take i)) callback).2

theorem resultAt_succ (index : Nat) (st : Station) (callback : SyncCallback)
    (rest : List SyncCallback) (i : Nat) :
    request.resultAt index st (callback :: rest) (i + 1)
      = request.resultAt (index + 1) (request.runOne index st callback).1 rest i := by
  rw [resultAt, resultAt, List.getElem?_cons_succ, List.take_succ_cons, afterRuns,
    Nat.add_right_comm, Nat.add_assoc]

/-- The first callbacks of a list have run in order, each from where the one
before it left off: all of them without a failure, or up to the first that
fails. -/
structure RanThrough (request : Request) (index : Nat) (st : Station)
    (callbacks : List SyncCallback) (ran : Nat) (st' : Station) (failure : Option Failure) :
    Prop where
  bound : ran ≤ callbacks.length
  station : st' = request.afterRuns index st (callbacks.take ran)
  before : ∀ i, i + 1 < ran → request.resultAt index st callbacks i = none
  last : match failure with
    | none => ran = callbacks.length ∧ ∀ i, request.resultAt index st callbacks i = none
    | some cause => 0 < ran ∧ request.resultAt index st callbacks (ran - 1) = some cause

namespace RanThrough

variable {index : Nat} {st mid : Station} {callback : SyncCallback} {rest : List SyncCallback}

/-- The first callback fails. -/
theorem stop {cause : Failure} (failed : request.runOne index st callback = (mid, some cause)) :
    request.RanThrough index st (callback :: rest) 1 mid (some cause) where
  bound := by simp
  station := by rw [List.take_succ_cons, List.take_zero, afterRuns, afterRuns, failed]
  before i less := by omega
  last := ⟨Nat.one_pos, congrArg Prod.snd failed⟩

/-- The first callback does not fail, and the others come after it. -/
theorem cons (done : request.runOne index st callback = (mid, none)) {ran : Nat} {st' : Station}
    {failure : Option Failure}
    (through : request.RanThrough (index + 1) mid rest ran st' failure) :
    request.RanThrough index st (callback :: rest) (ran + 1) st' failure := by
  have head : request.resultAt index st (callback :: rest) 0 = none := congrArg Prod.snd done
  have tail (i : Nat) : request.resultAt index st (callback :: rest) (i + 1)
      = request.resultAt (index + 1) mid rest i := by rw [resultAt_succ, done]
  refine ⟨Nat.succ_le_succ through.bound, ?_, fun i less => ?_, ?_⟩
  · rw [through.station, List.take_succ_cons, afterRuns, done]
  · cases i with
    | zero => exact head
    | succ i => exact (tail i).trans (through.before i (by omega))
  · have last := through.last
    cases failure with
    | none =>
      refine ⟨congrArg (· + 1) last.1, fun i => ?_⟩
      cases i with
      | zero => exact head
      | succ i => exact (tail i).trans (last.2 i)
    | some cause =>
      obtain ⟨i, rfl⟩ : ∃ i, ran = i + 1 := ⟨ran - 1, by omega⟩
      exact ⟨Nat.succ_pos _, (tail i).trans last.2⟩

end RanThrough

/-- The item behind the front of a list that others may have joined since. -/
theorem getElem?_of_listed {α : Type} {front rest all : List α} {item : α}
    (listed : front ++ item :: rest <+: all) : all[front.length]? = some item := by
  obtain ⟨more, rfl⟩ := listed
  simp

theorem runSyncFrom_ranThrough {st : Station} {callbacks front : List SyncCallback}
    (listed : front ++ callbacks <+: st.registry.syncCallbacks) (slots : List Slot) :
    ∃ ran, request.RanThrough front.length st callbacks ran
        (request.runSyncFrom front.length st callbacks).1
        (request.runSyncFrom front.length st callbacks).2 ∧
      request.Acts Nobody ⟨st, slots⟩
        ((List.range' front.length ran).map (Event.ran request.number) ++
          ((request.runSyncFrom front.length st callbacks).2.map
            (Event.failed request.number)).toList)
        ⟨(request.runSyncFrom front.length st callbacks).1, slots⟩ := by
  induction callbacks generalizing front st with
  | nil => exact ⟨0, ⟨Nat.le_refl _, rfl, fun i _ => rfl, rfl, fun i => rfl⟩, .none⟩
  | cons callback rest ih =>
    have first : request.Act ⟨st, slots⟩ _ _ := request.runOne_act (getElem?_of_listed listed)
    obtain ⟨all, since, -⟩ := first.journaled
    rw [runSyncFrom]
    split
    next mid failure failed =>
      rw [failed] at first
      exact ⟨1, .stop failed, first.acts⟩
    next mid done =>
      rw [done] at first since
      have later : (front ++ [callback]) ++ rest <+: st.registry.syncCallbacks := by
        simpa using listed
      obtain ⟨ran, through, acts⟩ := ih (later.trans since.syncCallbacks)
      rw [List.length_append, List.length_singleton] at through acts
      refine ⟨ran + 1, through.cons done, ?_⟩
      rw [List.range'_succ, List.map_cons]
      exact first.acts.trans acts

/-! ## Asynchronous callbacks -/

/-- The bodies of the callbacks come behind those that are there already. -/
theorem callFrom_acts {st : Station} {slots : List Slot} {callbacks front : List AsyncCallback}
    (listed : front ++ callbacks <+: st.registry.asyncCallbacks)
    (place : front.length = slots.length) :
    request.Acts Nobody ⟨st, slots⟩
      ((List.range' slots.length callbacks.length).map (Event.called request.number))
      ⟨(request.callFrom slots.length st callbacks).1,
        slots ++ (request.callFrom slots.length st callbacks).2⟩ := by
  induction callbacks generalizing front st slots with
  | nil =>
    rw [callFrom, List.append_nil]
    exact .none
  | cons callback rest ih =>
    have registered := getElem?_of_listed listed
    rw [place] at registered
    have first : request.Act ⟨st, slots⟩ [.called request.number slots.length]
        ⟨(request.callOne slots.length st callback).1,
          slots ++ [.awaited (request.callOne slots.length st callback).2]⟩ :=
      .called registered rfl
    obtain ⟨all, since, -⟩ := first.journaled
    have later : (front ++ [callback]) ++ rest <+: st.registry.asyncCallbacks := by
      simpa using listed
    have acts := @ih _ (slots ++ [.awaited (request.callOne slots.length st callback).2]) _
      (later.trans since.asyncCallbacks) (by simp [place])
    rw [List.length_append, List.length_singleton, List.append_assoc] at acts
    rw [List.length_cons, List.range'_succ, List.map_cons]
    exact first.acts.trans acts

/-- Every called callback gives a body, and none of them has completed yet. -/
theorem callFrom_slots (index : Nat) (st : Station) (callbacks : List AsyncCallback) :
    (request.callFrom index st callbacks).2.length = callbacks.length ∧
      ∀ slot ∈ (request.callFrom index st callbacks).2, isCompleted slot = false := by
  induction callbacks generalizing index st with
  | nil => exact ⟨rfl, fun slot member => nomatch member⟩
  | cons callback rest ih =>
    obtain ⟨length, open_⟩ := ih (index + 1) (request.callOne index st callback).1
    refine ⟨congrArg (· + 1) length, fun slot member => ?_⟩
    rcases List.mem_cons.mp member with rfl | later
    · rfl
    · exact open_ slot later

/-! ## Polls -/

theorem placed_append (turn : Station.Turn) (front slots : List Slot) :
    turn.placed front.length (front ++ slots) = front ++ turn.placed 0 slots := by
  cases turn <;> simp [Station.Turn.placed, List.set_append_right]

theorem pollOne_act (st : Station) {index : Nat} {front : List Slot}
    (place : front.length = index) (body : Body) (rest : List Slot) :
    request.Act ⟨st, front ++ .awaited body :: rest⟩
      (.polled request.number index ::
        match (request.pollOne index st body).2 with
        | .failed failure => [.failed request.number failure]
        | .completed => [.completed request.number index]
        | .suspended _ => [])
      ⟨(request.pollOne index st body).1,
        front ++ (request.pollOne index st body).2.placed 0 (.awaited body :: rest)⟩ := by
  subst place
  have awaited : (front ++ .awaited body :: rest)[front.length]? = some (.awaited body) := by simp
  rw [← placed_append, pollOne]
  generalize gave : (request.mark st (.polled request.number front.length)).poll request.token body
    = result
  obtain ⟨mid, turn⟩ := result
  cases turn with
  | failed failure => exact .crashed awaited gave
  | completed => exact .completed awaited gave
  | suspended rest => exact .suspended awaited gave

/-- What a round of polls may enter for the bodies with numbers in a range. -/
def PollEvent (number first bound : Nat) (failure : Option Failure) (event : Event) : Prop :=
  (∃ i, first ≤ i ∧ i < bound ∧ (event = .polled number i ∨ event = .completed number i)) ∨
    ∃ cause, failure = some cause ∧ event = .failed number cause

namespace PollEvent

variable {number first bound : Nat} {failure : Option Failure} {cause : Failure}

theorem of_none {event : Event} (poll : PollEvent number first bound none event)
    (failure : Option Failure) : PollEvent number first bound failure event := by
  obtain polled | ⟨_, no, _⟩ := poll
  · exact .inl polled
  · cases no

theorem failed (poll : PollEvent number first bound failure (.failed number cause)) :
    failure = some cause := by
  obtain ⟨i, _, _, same⟩ | ⟨_, same, same'⟩ := poll
  · cases same <;> contradiction
  · cases same'
    exact same

theorem not_prepared : ¬ PollEvent number first bound failure (.prepared number) := by
  rintro (⟨i, _, _, same⟩ | ⟨_, _, same⟩)
  · cases same <;> contradiction
  · cases same

theorem not_began (m : MetricId) : ¬ PollEvent number first bound failure (.began number m) := by
  rintro (⟨i, _, _, same⟩ | ⟨_, _, same⟩)
  · cases same <;> contradiction
  · cases same

end PollEvent

theorem PollEvent.mono {number first bound : Nat} {failure : Option Failure} {event : Event}
    (late : PollEvent number (first + 1) bound failure event) :
    PollEvent number first bound failure event := by
  rcases late with ⟨i, above, below, same⟩ | failed
  · exact .inl ⟨i, Nat.le_of_succ_le above, below, same⟩
  · exact .inr failed

/-- A round of polls over bodies numbered from a start. -/
structure Polled (request : Request) (index : Nat) (slots slots' : List Slot)
    (failure : Option Failure) (events : List Event) : Prop where
  length : slots'.length = slots.length
  kinds : ∀ event ∈ events,
    PollEvent request.number index (index + slots.length) failure event
  failed : ∀ cause, failure = some cause → .failed request.number cause ∈ events
  completed : ∀ i, slots'[i]? = some .completed →
    slots[i]? = some .completed ∨ .completed request.number (index + i) ∈ events

/-- Polls of the later bodies, seen together with what came of the first. -/
theorem Polled.cons {index : Nat} {slot slot' : Slot} {slots slots' : List Slot}
    {failure : Option Failure} {events : List Event} (first : List Event)
    (polled : request.Polled (index + 1) slots slots' failure events)
    (mine : ∀ event ∈ first,
      event = .polled request.number index ∨ event = .completed request.number index)
    (ended : slot' = .completed → slot = .completed ∨ .completed request.number index ∈ first) :
    request.Polled index (slot :: slots) (slot' :: slots') failure (first ++ events) where
  length := congrArg (· + 1) polled.length
  kinds event member := by
    rcases List.mem_append.mp member with now | later
    · exact .inl ⟨index, Nat.le_refl _, by simp, mine event now⟩
    · rw [List.length_cons, Nat.add_comm slots.length, ← Nat.add_assoc]
      exact (polled.kinds event later).mono
  failed cause failed := List.mem_append_right _ (polled.failed cause failed)
  completed i done := by
    cases i with
    | zero =>
      rw [List.getElem?_cons_zero, Option.some.injEq] at done ⊢
      exact (ended done).imp_right (List.mem_append_left _)
    | succ i =>
      rw [← Nat.add_assoc, Nat.add_right_comm]
      exact (polled.completed i done).imp_right (List.mem_append_right _)

theorem pollFrom_acts (index : Nat) (st : Station) (slots : List Slot) {front : List Slot}
    (place : front.length = index) :
    ∃ events, request.Acts Nobody ⟨st, front ++ slots⟩ events
        ⟨(request.pollFrom index st slots).1, front ++ (request.pollFrom index st slots).2.1⟩ ∧
      request.Polled index slots (request.pollFrom index st slots).2.1
        (request.pollFrom index st slots).2.2 events := by
  fun_induction pollFrom request index st slots generalizing front with
  | case1 index st => exact ⟨[], .none, ⟨rfl, by simp, by simp, by simp⟩⟩
  | case2 index st rest st' rest' failure polled ih =>
    obtain ⟨events, acts, later⟩ := @ih (front ++ [.completed]) (by simp [place])
    rw [polled] at acts later
    rw [List.append_assoc, List.append_assoc] at acts
    exact ⟨events, acts, later.cons [] (by simp) fun _ => .inl rfl⟩
  | case3 index st body rest st' failure polled =>
    have act := request.pollOne_act st place body rest
    rw [polled] at act
    refine ⟨_, act.acts, ⟨rfl, ?_, ?_, fun i same => .inl same⟩⟩
    · intro event member
      rcases List.mem_cons.mp member with rfl | member
      · exact .inl ⟨index, Nat.le_refl _, by simp, .inl rfl⟩
      · exact .inr ⟨failure, rfl, List.mem_singleton.mp member⟩
    · intro cause same
      obtain rfl := Option.some.inj same
      simp
  | case4 index st body rest mid polled st' rest' failure later_eq ih =>
    have act := request.pollOne_act st place body rest
    obtain ⟨events, acts, later⟩ := @ih (front ++ [.completed]) (by simp [place])
    rw [polled] at act
    rw [later_eq] at acts later
    rw [List.append_assoc, List.append_assoc] at acts
    refine ⟨_, act.acts.trans acts, later.cons _ ?_ fun _ => .inr (by simp)⟩
    simp
  | case5 index st body rest mid body' polled st' rest' failure later_eq ih =>
    have act := request.pollOne_act st place body rest
    obtain ⟨events, acts, later⟩ := @ih (front ++ [.awaited body']) (by simp [place])
    rw [polled] at act
    rw [later_eq] at acts later
    rw [List.append_assoc, List.append_assoc] at acts
    exact ⟨_, act.acts.trans acts, later.cons _ (by simp) nofun⟩

/-! ## Writing -/

/-- One metric: it is begun, and its block goes behind the output. -/
theorem write_cons (st : Station) (out : Bytes) (m : MetricId) (rest : List MetricId) :
    ∃ pool, request.write st out (m :: rest)
      = if st.isCancelled request.token then (st, out, .error .cancelled)
        else
          request.write { request.mark st (.began request.number m) with pool }
            (out ++ (request.mark st (.began request.number m)).registry.blockAt
              request.timestamp m) rest := by
  obtain ⟨pool, block⟩ := (request.mark st (.began request.number m)).registry.writeBlock_eq
    ((request.mark st (.began request.number m)).registry.metrics[m]?.getD default)
    request.timestamp out (request.mark st (.began request.number m)).pool
  refine ⟨pool, ?_⟩
  rw [write]
  simp only [block]
  rfl

/-- Blocks were written for the first metrics of a list, each begun before the
token was cancelled: for all of them and the closing line behind, or up to a
moment at which the token was cancelled. -/
structure Wrote (request : Request) (metrics : List MetricId) (st : Station) (out : Bytes)
    (written : Nat) (st' : Station) (out' : Bytes) (outcome : Outcome) (events : List Event) :
    Prop where
  bound : written ≤ metrics.length
  registry : st'.registry = st.registry
  began : request.own events = (metrics.take written).map (Event.began request.number)
  heard : ∀ m ∈ metrics.take written, request.Heard st events (.began request.number m)
  outcome : (outcome = .ok () ∧ written = metrics.length ∧
      out' = out ++ metrics.flatMap (st'.registry.blockAt request.timestamp)
        ++ Exposition.documentEnd) ∨
    (outcome = .error .cancelled ∧ written < metrics.length ∧
      st'.isCancelled request.token = true ∧
      out' = out ++ (metrics.take written).flatMap (st'.registry.blockAt request.timestamp))

theorem write_wrote (metrics : List MetricId) (st : Station) (out : Bytes) :
    ∃ written events, Since st (request.write st out metrics).1 events ∧
      (∀ slots, request.Acts Nobody ⟨st, slots⟩ (request.own events)
        ⟨(request.write st out metrics).1, slots⟩) ∧
      request.Wrote metrics st out written (request.write st out metrics).1
        (request.write st out metrics).2.1 (request.write st out metrics).2.2 events := by
  induction metrics generalizing st out with
  | nil =>
    exact ⟨0, [], .refl st, fun _ => .none,
      ⟨Nat.le_refl _, rfl, rfl, by simp, .inl ⟨rfl, rfl, by simp [write]⟩⟩⟩
  | cons m rest ih =>
    obtain ⟨pool, stepped⟩ := request.write_cons st out m rest
    rw [stepped]
    split
    next cancelled =>
      exact ⟨0, [], .refl st, fun _ => .none, ⟨Nat.zero_le _, rfl, rfl, by simp,
        .inr ⟨rfl, Nat.succ_pos _, cancelled, by simp⟩⟩⟩
    next calm =>
      have calm : st.isCancelled request.token = false := by simpa using calm
      obtain ⟨tail, since, noOther⟩ :=
        request.mark_since st (.began request.number m) rfl
      have sameRegistry := request.registry_mark st (.began request.number m)
      have act (slots : List Slot) : request.Act ⟨st, slots⟩ _ _ := .began m pool
      revert since sameRegistry act
      generalize request.mark st (.began request.number m) = mid
      intro since sameRegistry act
      obtain ⟨written, events, since', acts, wrote⟩ :=
        ih { mid with pool } (out ++ mid.registry.blockAt request.timestamp m)
      have reached : Since st { mid with pool } (.began request.number m :: tail) :=
        since.of_eq rfl rfl rfl
      have own : request.own (.began request.number m :: tail ++ events)
          = [.began request.number m] ++ request.own events := by
        rw [own_append, request.own_entry rfl noOther]
      refine ⟨written + 1, .began request.number m :: tail ++ events, reached.trans since',
        fun slots => ?_, Nat.succ_le_succ wrote.bound, wrote.registry.trans sameRegistry,
        ?_, ?_, ?_⟩
      · rw [own]
        exact (act slots).acts.trans (acts slots)
      · rw [own, wrote.began, List.take_succ_cons, List.map_cons, List.singleton_append]
      · intro other member
        rw [List.take_succ_cons] at member
        rcases List.mem_cons.mp member with rfl | later
        · exact (heard_mark calm _ tail rfl).append events
        · exact (wrote.heard other later).since reached
      · have same := wrote.registry
        rcases wrote.outcome with ⟨ok, all, text⟩ | ⟨stopped, some, cancelled, text⟩
        · refine .inl ⟨ok, congrArg (· + 1) all, ?_⟩
          rw [text, same, List.flatMap_cons, List.append_assoc out]
        · refine .inr ⟨stopped, Nat.succ_lt_succ some, cancelled, ?_⟩
          rw [text, same, List.take_succ_cons, List.flatMap_cons, List.append_assoc]

/-! ## The acts of a turn -/

/-- From a bench with the bodies that are awaited there, the collection goes by acts to where a
turn leaves it. -/
def Goes (request : Request) (start : Bench) (last : Station × Bytes × Phase) : Prop :=
  ∃ events slots, request.Acts Nobody start events ⟨last.1, slots⟩ ∧ last.2.2.Awaits slots

theorem Goes.after {start mid : Bench} {events : List Event} {last : Station × Bytes × Phase}
    (acts : request.Acts Nobody start events mid) (goes : request.Goes mid last) :
    request.Goes start last := by
  obtain ⟨more, slots, later, awaits⟩ := goes
  exact ⟨events ++ more, slots, acts.trans later, awaits⟩

variable (st : Station) (out : Bytes) (slots : List Slot)

theorem finish_goes : request.Goes ⟨st, slots⟩ (request.finish st out) := by
  unfold finish
  split
  · exact ⟨[], slots, .none, trivial⟩
  · have act : request.Act ⟨st, slots⟩ _ _ := .prepared
    obtain ⟨-, events, -, acts, -⟩ := request.write_wrote
      (List.range (request.mark st (.prepared request.number)).registry.metricCount)
      (request.mark st (.prepared request.number)) out
    exact .after act.acts ⟨request.own events, slots, acts slots, trivial⟩

theorem await_goes : request.Goes ⟨st, slots⟩ (request.await st out slots) := by
  unfold await
  split
  · exact ⟨[], slots, .none, trivial⟩
  · obtain ⟨events, polled, -⟩ := @pollFrom_acts request 0 st slots [] rfl
    generalize request.pollFrom 0 st slots = result at polled
    obtain ⟨mid, slots', failure⟩ := result
    cases failure with
    | some cause => exact ⟨events, slots', polled, trivial⟩
    | none =>
      dsimp only
      split
      · exact .after polled (request.finish_goes mid out slots')
      · exact ⟨events, slots', polled, rfl⟩

theorem begin_goes : request.Goes ⟨st, []⟩ (request.begin st out) := by
  have entered : request.Act ⟨st, []⟩ _ ⟨request.mark st (.entered request.number), []⟩ := .entered
  refine .after entered.acts ?_
  unfold begin
  generalize request.mark st (.entered request.number) = mid
  dsimp only
  obtain ⟨ran, -, runs⟩ := @runSyncFrom_ranThrough request mid mid.registry.syncCallbacks []
    (List.prefix_refl _) []
  rw [List.length_nil] at runs
  generalize request.runSyncFrom 0 mid mid.registry.syncCallbacks = result at runs
  obtain ⟨mid', failure⟩ := result
  refine .after runs ?_
  cases failure with
  | some cause => exact ⟨[], [], .none, trivial⟩
  | none =>
    dsimp only
    split
    · exact request.finish_goes mid' out []
    · have calls := @callFrom_acts request mid' [] mid'.registry.asyncCallbacks []
        (List.prefix_refl _) rfl
      exact .after calls (request.await_goes _ out _)

/-- What a turn does: acts of the collection, and nothing else. -/
theorem turn_goes (granted : Bool) {phase : Phase} (awaits : phase.Awaits slots) :
    request.Goes ⟨st, slots⟩ (request.turn granted st out phase) := by
  cases phase with
  | waiting =>
    obtain rfl : slots = [] := awaits
    rw [turn]
    split
    · exact ⟨[], [], .none, trivial⟩
    · split
      · exact request.begin_goes st out
      · exact ⟨[], [], .none, rfl⟩
  | awaiting awaited =>
    obtain rfl : awaited = slots := awaits
    exact request.await_goes st out awaited
  | ended outcome => exact ⟨[], slots, .none, trivial⟩

/-- What every act keeps, a turn keeps. -/
theorem Invariant.turn {holds : Bench → Prop} (invariant : request.Invariant holds)
    {st : Station} {slots : List Slot} (before : holds ⟨st, slots⟩) (granted : Bool) (out : Bytes)
    {phase : Phase} (awaits : phase.Awaits slots) :
    ∃ slots', holds ⟨(request.turn granted st out phase).1, slots'⟩ ∧
      (request.turn granted st out phase).2.2.Awaits slots' := by
  obtain ⟨events, slots', acts, awaits'⟩ := request.turn_goes st out slots granted awaits
  exact ⟨slots', invariant.acts acts before, awaits'⟩

end Request

end GaugeExporter
