import GaugeExporter.Proofs.Collection.Alike
import GaugeExporter.Proofs.Collection.Schedule
import Mathlib.Data.List.Induction

/-!
# What a collection leaves behind

A collection changes the store by running callback code and by nothing else.
`Request.Effects` replays the code alone: callbacks run and bodies polled one
after another, with the deeds of other parties in between, and stretches in
which only the journal, the pooled buffer and the collection's own token may
change.  An act of a collection is a piece of code that its entry announces, or
no code at all (`Act.worked`), so the code that is replayed is the code that
ran.  A later collection with a fresh token sees nothing but the store, so that
it goes as if the one before it had never been there (`leaves_only_effects`).
-/

namespace GaugeExporter

open Station (Since SameStore Background)

/-! ## The replay -/

/-- A station with the bodies that are awaited. -/
structure Ledger where
  station : Station
  bodies : List Body

/-- A piece of callback code, by the position of its callback. -/
inductive Code where
  | ran (callback : Nat)
  | called (callback : Nat)
  | polled (callback : Nat)

/-- The entry of the collection with a number in front of a piece of code. -/
def Code.entry (number : Nat) : Code → Event
  | .ran i => .ran number i
  | .called i => .called number i
  | .polled i => .polled number i

/-- An entry in front of a piece of code. -/
def Event.isCode : Event → Bool
  | .ran .. | .called .. | .polled .. => true
  | _ => false

/-- What changes a store: callback code, and the deeds of other parties. -/
inductive Effect where
  | code (code : Code)
  | deed (deed : Deed)

def Effect.code? : Effect → Option Code
  | .code c => some c
  | .deed _ => none

def Effect.deed? : Effect → Option Deed
  | .code _ => none
  | .deed d => some d

def Step.deed? : Step → Option Deed
  | .deed d => some d
  | _ => none

/-- The bodies after a turn of the one at a position. -/
def Station.Turn.stored (turn : Station.Turn) (i : Nat) (bodies : List Body) : List Body :=
  match turn with
  | .suspended rest => bodies.set i rest
  | _ => bodies

namespace Request

/-- The store is the same, and no token but the collection's own has been
cancelled. -/
structure Still (request : Request) (st st' : Station) : Prop where
  store : st.SameStore st'
  kept : ∀ token, st.isCancelled token = true → st'.isCancelled token = true
  cancelled : ∀ token, st'.isCancelled token = true →
    st.isCancelled token = true ∨ token = request.token

/-- A piece of callback code takes a ledger to another. -/
inductive Runs (request : Request) : Ledger → Code → Ledger → Prop
  | ran {st : Station} {bodies : List Body} {i : Nat} {callback : SyncCallback}
      (registered : st.registry.syncCallbacks[i]? = some callback) :
      Runs request ⟨st, bodies⟩ (.ran i) ⟨(st.runSync request.token callback).1, bodies⟩
  | called {st : Station} {bodies : List Body} {callback : AsyncCallback}
      (registered : st.registry.asyncCallbacks[bodies.length]? = some callback) :
      Runs request ⟨st, bodies⟩ (.called bodies.length)
        ⟨(st.call request.token callback).1, bodies ++ [(st.call request.token callback).2]⟩
  | polled {st : Station} {bodies : List Body} {i : Nat} {body : Body}
      (awaited : bodies[i]? = some body) :
      Runs request ⟨st, bodies⟩ (.polled i)
        ⟨(st.poll request.token body).1, (st.poll request.token body).2.stored i bodies⟩

/-- Effects one after another, and nothing else. -/
inductive Effects (request : Request) (start : Ledger) : List Effect → Ledger → Prop
  | none : Effects request start [] start
  | still {effects : List Effect} {mid : Ledger} {st : Station}
      (before : Effects request start effects mid) (still : request.Still mid.station st) :
      Effects request start effects { mid with station := st }
  | code {effects : List Effect} {mid last : Ledger} {code : Code}
      (before : Effects request start effects mid) (runs : request.Runs mid code last) :
      Effects request start (effects ++ [.code code]) last
  | deed {effects : List Effect} {mid : Ledger} (before : Effects request start effects mid)
      (d : Deed) :
      Effects request start (effects ++ [.deed d]) { mid with station := d.run mid.station }

/-- The collection entered these pieces of code, in this order. -/
def Announced (request : Request) (st st' : Station) (codes : List Code) : Prop :=
  ∃ events, request.Leaves st st' events ∧
    events.filter Event.isCode = codes.map (Code.entry request.number)

/-- Code ran, and nothing else happened: the code that the collection entered. -/
def Worked (request : Request) (start : Ledger) (codes : List Code) (last : Ledger) : Prop :=
  request.Effects start (codes.map .code) last ∧
    request.Announced start.station last.station codes

variable {request : Request} {st st' : Station} {bodies : List Body}

theorem Effects.trans {start mid last : Ledger} {before after : List Effect}
    (left : request.Effects start before mid) (right : request.Effects mid after last) :
    request.Effects start (before ++ after) last := by
  induction right with
  | none => rwa [List.append_nil]
  | still _ still ih => exact ih.still still
  | code _ runs ih =>
    rw [← List.append_assoc]
    exact ih.code runs
  | deed _ d ih =>
    rw [← List.append_assoc]
    exact ih.deed d

theorem Announced.trans {first second third : Station} {before after : List Code}
    (left : request.Announced first second before)
    (right : request.Announced second third after) :
    request.Announced first third (before ++ after) := by
  obtain ⟨events, leaves, code⟩ := left
  obtain ⟨events', leaves', code'⟩ := right
  exact ⟨events ++ events', leaves.trans leaves', by
    rw [List.filter_append, code, code', List.map_append]⟩

namespace Still

theorem trans {first second third : Station} (left : request.Still first second)
    (right : request.Still second third) : request.Still first third where
  store := left.store.trans right.store
  kept token before := right.kept token (left.kept token before)
  cancelled token after := by
    obtain mid | own := right.cancelled token after
    · exact left.cancelled token mid
    · exact .inr own

theorem record (st : Station) (event : Event) : request.Still st (st.record event) :=
  ⟨.record st event, fun _ => id, fun _ => .inl⟩

theorem cancel (st : Station) : request.Still st (st.cancel request.token) := by
  refine ⟨.cancel st _, fun token before => ?_, fun token after => ?_⟩
  · rw [Station.isCancelled_cancel, before, Bool.or_true]
  · rw [Station.isCancelled_cancel, Bool.or_eq_true, beq_iff_eq] at after
    exact after.symm

theorem mark (st : Station) (event : Event) : request.Still st (request.mark st event) := by
  unfold Request.mark
  dsimp only
  split
  · exact (record st event).trans (cancel _)
  · exact record st event

theorem pool (st : Station) (pool : List Binary.Double) : request.Still st { st with pool } :=
  ⟨⟨rfl, rfl, rfl, rfl, rfl, rfl, rfl, rfl⟩, fun _ => id, fun _ => .inl⟩

end Still

namespace Worked

theorem refl (start : Ledger) : request.Worked start [] start :=
  ⟨.none, [], .refl start.station, rfl⟩

theorem trans {start mid last : Ledger} {before after : List Code}
    (left : request.Worked start before mid) (right : request.Worked mid after last) :
    request.Worked start (before ++ after) last :=
  ⟨by rw [List.map_append]; exact left.1.trans right.1, left.2.trans right.2⟩

end Worked

/-! ## Acts are code -/

/-- The bodies stand in the places of their slots. -/
structure Filed (bodies : List Body) (slots : List Slot) : Prop where
  length : bodies.length = slots.length
  held : ∀ (i : Nat) (body : Body), slots[i]? = some (.awaited body) → bodies[i]? = some body

variable {slots : List Slot}

namespace Filed

theorem nil : Filed [] [] := ⟨rfl, nofun⟩

theorem concat (filed : Filed bodies slots) (body : Body) :
    Filed (bodies ++ [body]) (slots ++ [.awaited body]) where
  length := by simp [filed.length]
  held i other found := by
    rw [List.getElem?_append] at found ⊢
    rw [filed.length]
    split at found
    next inside => rw [if_pos inside]; exact filed.held i other found
    next outside =>
      rw [if_neg outside]
      rw [List.getElem?_singleton] at found ⊢
      split at found
      · cases found
        rw [if_pos ‹_›]
      · cases found

/-- A turn of a body changes the body in its own place at most. -/
theorem placed (filed : Filed bodies slots) {i : Nat} {body : Body}
    (awaited : slots[i]? = some (.awaited body)) (turn : Station.Turn) :
    Filed (turn.stored i bodies) (turn.placed i slots) := by
  have inside : i < bodies.length := (List.getElem?_eq_some_iff.mp (filed.held i body awaited)).1
  cases turn with
  | failed failure => exact filed
  | completed =>
    refine ⟨by simp [Station.Turn.placed, Station.Turn.stored, filed.length], ?_⟩
    intro j other found
    rw [Station.Turn.placed, List.getElem?_set] at found
    split at found
    · split at found <;> cases found
    · exact filed.held j other found
  | suspended rest =>
    refine ⟨by simp [Station.Turn.placed, Station.Turn.stored, filed.length], ?_⟩
    intro j other found
    rw [Station.Turn.placed, List.getElem?_set] at found
    rw [Station.Turn.stored, List.getElem?_set]
    split at found
    next same =>
      rw [if_pos same, if_pos inside]
      split at found <;> cases found
      rfl
    next differs =>
      rw [if_neg differs]
      exact filed.held j other found

end Filed

/-- Behind its entry a piece of code runs. -/
theorem effects_of_runs {event : Event} {code : Code} {last : Ledger}
    (runs : request.Runs ⟨request.mark st event, bodies⟩ code last) :
    request.Effects ⟨st, bodies⟩ [.code code] last :=
  (Effects.none.still (.mark st event)).code runs

theorem effects_ran {i : Nat} {callback : SyncCallback}
    (registered : st.registry.syncCallbacks[i]? = some callback) (event : Event) :
    request.Effects ⟨st, bodies⟩ [.code (.ran i)]
      ⟨((request.mark st event).runSync request.token callback).1, bodies⟩ := by
  rw [← request.registry_mark st event] at registered
  exact effects_of_runs (.ran registered)

theorem effects_called {callback : AsyncCallback}
    (registered : st.registry.asyncCallbacks[bodies.length]? = some callback) (event : Event) :
    request.Effects ⟨st, bodies⟩ [.code (.called bodies.length)]
      ⟨((request.mark st event).call request.token callback).1,
        bodies ++ [((request.mark st event).call request.token callback).2]⟩ := by
  rw [← request.registry_mark st event] at registered
  exact effects_of_runs (.called registered)

theorem effects_polled {i : Nat} {body : Body} (awaited : bodies[i]? = some body) (event : Event) :
    request.Effects ⟨st, bodies⟩ [.code (.polled i)]
      ⟨((request.mark st event).poll request.token body).1,
        ((request.mark st event).poll request.token body).2.stored i bodies⟩ :=
  effects_of_runs (.polled awaited)

/-- Every act is a piece of code that its first entry announces, or no code at all. -/
theorem Act.worked {start last : Bench} {events : List Event}
    (act : request.Act start events last) (filed : Filed bodies start.slots) :
    ∃ codes bodies', request.Worked ⟨start.station, bodies⟩ codes ⟨last.station, bodies'⟩ ∧
      Filed bodies' last.slots := by
  have leaves := act.journaled.leaves
  cases act with
  | entered =>
    exact ⟨[], bodies, ⟨Effects.none.still (.mark _ _), _, leaves, rfl⟩, filed⟩
  | prepared =>
    exact ⟨[], bodies, ⟨Effects.none.still (.mark _ _), _, leaves, rfl⟩, filed⟩
  | @began st slots m pool =>
    have still : request.Still st { request.mark st (.began request.number m) with pool } :=
      (Still.mark st _).trans (.pool _ pool)
    exact ⟨[], bodies, ⟨Effects.none.still still, _, leaves, rfl⟩, filed⟩
  | @ran st st' slots i callback registered gave =>
    have effects : request.Effects ⟨st, bodies⟩ _ _ :=
      effects_ran registered (.ran request.number i)
    rw [gave] at effects
    exact ⟨[.ran i], bodies, ⟨effects, _, leaves, rfl⟩, filed⟩
  | @broke st st' slots i callback failure registered gave =>
    have effects : request.Effects ⟨st, bodies⟩ _ _ :=
      effects_ran registered (.ran request.number i)
    rw [gave] at effects
    exact ⟨[.ran i], bodies, ⟨effects.still (.mark _ _), _, leaves, rfl⟩, filed⟩
  | @called st st' slots callback body registered gave =>
    rw [← filed.length] at registered gave
    have effects : request.Effects ⟨st, bodies⟩ _ _ :=
      effects_called registered (.called request.number bodies.length)
    rw [gave, filed.length] at effects
    exact ⟨[.called slots.length], bodies ++ [body], ⟨effects, _, leaves, rfl⟩,
      filed.concat body⟩
  | @suspended st st' slots i body rest awaited gave =>
    have effects : request.Effects ⟨st, bodies⟩ _ _ :=
      effects_polled (filed.held i body awaited) (.polled request.number i)
    rw [gave] at effects
    exact ⟨[.polled i], bodies.set i rest, ⟨effects, _, leaves, rfl⟩,
      filed.placed awaited (.suspended rest)⟩
  | @completed st st' slots i body awaited gave =>
    have effects : request.Effects ⟨st, bodies⟩ _ _ :=
      effects_polled (filed.held i body awaited) (.polled request.number i)
    rw [gave] at effects
    exact ⟨[.polled i], bodies, ⟨effects.still (.mark _ _), _, leaves, rfl⟩,
      filed.placed awaited .completed⟩
  | @crashed st st' slots i body failure awaited gave =>
    have effects : request.Effects ⟨st, bodies⟩ _ _ :=
      effects_polled (filed.held i body awaited) (.polled request.number i)
    rw [gave] at effects
    exact ⟨[.polled i], bodies, ⟨effects.still (.mark _ _), _, leaves, rfl⟩, filed⟩

theorem Acts.worked {start last : Bench} {events : List Event}
    (acts : request.Acts Nobody start events last) (filed : Filed bodies start.slots) :
    ∃ codes bodies', request.Worked ⟨start.station, bodies⟩ codes ⟨last.station, bodies'⟩ ∧
      Filed bodies' last.slots := by
  induction acts with
  | none => exact ⟨[], bodies, .refl _, filed⟩
  | act _ act ih =>
    obtain ⟨codes, bodies', worked, filed'⟩ := ih
    obtain ⟨more, bodies'', worked', filed''⟩ := act.worked filed'
    exact ⟨codes ++ more, bodies'', worked.trans worked', filed''⟩
  | others _ nobody => exact nobody.elim

/-! ## A collection among other parties -/

/-- Between two moments the store changed by code that the collection announced
and by these deeds, and by nothing else. -/
def DiffersBy (request : Request) (start : Ledger) (deeds : List Deed) (last : Ledger) : Prop :=
  ∃ effects, request.Effects start effects last ∧
    request.Announced start.station last.station (effects.filterMap Effect.code?) ∧
    effects.filterMap Effect.deed? = deeds

theorem DiffersBy.trans {start mid last : Ledger} {before after : List Deed}
    (left : request.DiffersBy start before mid) (right : request.DiffersBy mid after last) :
    request.DiffersBy start (before ++ after) last := by
  obtain ⟨effects, replay, announced, rfl⟩ := left
  obtain ⟨effects', replay', announced', rfl⟩ := right
  exact ⟨effects ++ effects', replay.trans replay',
    by rw [List.filterMap_append]; exact announced.trans announced', List.filterMap_append⟩

theorem Worked.differsBy {start last : Ledger} {codes : List Code}
    (worked : request.Worked start codes last) : request.DiffersBy start [] last := by
  refine ⟨codes.map .code, worked.1, ?_, ?_⟩
  · rw [List.filterMap_map]
    simpa [Function.comp_def, Effect.code?] using worked.2
  · rw [List.filterMap_map, List.filterMap_eq_nil_iff]
    exact fun _ _ => rfl

variable (request)

/-- The bodies are those that a collection awaits in the phase. -/
def Holds (bodies : List Body) (phase : Phase) : Prop :=
  ∃ slots, phase.Awaits slots ∧ Filed bodies slots

theorem step_differsBy {moment : Moment} (holds : Holds bodies moment.phase) (step : Step) :
    ∃ bodies', request.DiffersBy ⟨moment.station, bodies⟩ step.deed?.toList
        ⟨(request.step moment step).station, bodies'⟩ ∧
      Holds bodies' (request.step moment step).phase := by
  cases step with
  | turn granted =>
    obtain ⟨slots, awaits, filed⟩ := holds
    obtain ⟨events, slots', acts, awaits'⟩ :=
      request.turn_goes moment.station moment.out slots granted awaits
    obtain ⟨codes, bodies', worked, filed'⟩ := acts.worked filed
    exact ⟨bodies', worked.differsBy, slots', awaits', filed'⟩
  | deed d =>
    refine ⟨bodies, ⟨[.deed d], Effects.none.deed d, ?_, rfl⟩, holds⟩
    exact ⟨[], .of_background (d.background moment.station), rfl⟩
  | noted number timestamp =>
    refine ⟨bodies, ⟨[], Effects.none.still (.record _ _), ?_, rfl⟩, holds⟩
    have noCode : (request.own [.ended number timestamp]).filter Event.isCode = [] := by
      rw [own, List.filter_filter, List.filter_eq_nil_iff]
      simp [Event.isCode]
    exact ⟨_, ⟨[.ended number timestamp], Station.record_since _ (by simp), rfl⟩, noCode⟩

theorem play_differsBy (start : Station) (steps : List Step) :
    ∃ bodies, request.DiffersBy ⟨start, []⟩ (steps.filterMap Step.deed?)
        ⟨(request.play (request.first start) steps).station, bodies⟩ ∧
      Holds bodies (request.play (request.first start) steps).phase := by
  induction steps using List.reverseRecOn with
  | nil => exact ⟨[], (Worked.refl _).differsBy, [], rfl, .nil⟩
  | append_singleton before last ih =>
    obtain ⟨bodies, differs, holds⟩ := ih
    obtain ⟨bodies', differs', holds'⟩ := request.step_differsBy holds last
    have step : request.play (request.first start) (before ++ [last])
        = request.step (request.play (request.first start) before) last := request.play_append ..
    have deeds : (before ++ [last]).filterMap Step.deed?
        = before.filterMap Step.deed? ++ last.deed?.toList := by
      rw [List.filterMap_append, List.filterMap_cons, List.filterMap_nil]
      cases last.deed? <;> rfl
    rw [step, deeds]
    exact ⟨bodies', differs.trans differs', holds'⟩

/-- The station has seen neither the token cancelled nor the collection. -/
structure New (request : Request) (st : Station) : Prop where
  calm : st.isCancelled request.token = false
  unheard : request.own st.journal.toList = []

/-- However a collection goes and ends, with other parties around it: the store
changes by the callback code that it announces and by the deeds of the others,
and by nothing else.  A new collection then gives what it gives at any station
with the same store. -/
theorem leaves_only_effects (request : Request) (start : Station) (steps : List Step) :
    let after := (request.play (request.first start) steps).station
    (∃ bodies, request.DiffersBy ⟨start, []⟩ (steps.filterMap Step.deed?) ⟨after, bodies⟩) ∧
      ∀ (fresh : Station) (later : Request), after.SameStore fresh → later.Told →
        later.New after → later.New fresh →
        later.Agree (after.collect later) (fresh.collect later) := by
  obtain ⟨bodies, differs, -⟩ := request.play_differsBy start steps
  refine ⟨⟨bodies, differs⟩, fun fresh later same told new new' => ?_⟩
  exact collect_agree told
    ⟨same, new.calm.trans new'.calm.symm, new.unheard.trans new'.unheard.symm⟩

def three : Binary.Double := ⟨0x4008000000000000⟩

/-- A station with a callback that sets a series and then fails in its first
run. -/
def fickle : Station :=
  { registry :=
      { metrics := #[⟨"load", none, [0]⟩], series := #[⟨0, [], none, .nan⟩],
        syncCallbacks := [.script 0 [.set 0 three, .fail "no" (some [0])]] }
    seriesNumbers := #[0], metricNumbers := #[0], runs := #[0] }

/-- After the failure the series has its value, and the next collection gives
what it gives at a station that has never collected. -/
theorem fickle_recovers :
    let failing : Request := { timestamp := 0, token := 0 }
    let later : Request := { number := 1, timestamp := 1, token := 1 }
    let after := (failing.play (failing.first fickle) [.turn true]).station
    let fresh : Station := { after with journal := #[], pool := [.nan] }
    (failing.play (failing.first fickle) [.turn true]).phase
        = .ended (.error (.callback (.message "no"))) ∧
      after.registry.value 0 = three ∧
      later.Agree (after.collect later) (fresh.collect later) := by
  refine ⟨rfl, rfl, ?_⟩
  exact (leaves_only_effects { timestamp := 0, token := 0 } fickle [.turn true]).2 _
    { number := 1, timestamp := 1, token := 1 } ⟨rfl, rfl, rfl, rfl, rfl, rfl, rfl, rfl⟩
    (fun _ _ _ _ _ => rfl) ⟨rfl, rfl⟩ ⟨rfl, rfl⟩

end Request

end GaugeExporter
