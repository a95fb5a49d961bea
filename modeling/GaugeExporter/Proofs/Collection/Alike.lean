import GaugeExporter.Collection.System
import GaugeExporter.Proofs.Collection.Phases

/-!
# What a collection looks at

Callback code looks at the store of a station and at the token of the collection
that runs it, and the collection around it at the same token and at its own
entries.  Two stations that agree on these are `Alike`, whatever else their
journals hold, which other tokens have been cancelled and what is left in the
pooled buffer.  A turn on one gives what it gives on the other, and leaves them
alike (`turn_agree`), and so does a whole collection (`collect_agree`).
-/

namespace GaugeExporter

open Binary (Double)

namespace Station

/-! ## The store -/

/-- Everything but the journal, the tokens and the pooled buffer. -/
structure SameStore (st st' : Station) : Prop where
  registry : st.registry = st'.registry
  files : st.files = st'.files
  clock : st.clock = st'.clock
  reachable : st.reachable = st'.reachable
  metricNumbers : st.metricNumbers = st'.metricNumbers
  seriesNumbers : st.seriesNumbers = st'.seriesNumbers
  runs : st.runs = st'.runs
  ticks : st.ticks = st'.ticks

namespace SameStore

variable {st st' : Station}

theorem refl (st : Station) : st.SameStore st := ⟨rfl, rfl, rfl, rfl, rfl, rfl, rfl, rfl⟩

theorem symm (same : st.SameStore st') : st'.SameStore st where
  registry := same.registry.symm
  files := same.files.symm
  clock := same.clock.symm
  reachable := same.reachable.symm
  metricNumbers := same.metricNumbers.symm
  seriesNumbers := same.seriesNumbers.symm
  runs := same.runs.symm
  ticks := same.ticks.symm

theorem trans {first second third : Station} (left : first.SameStore second)
    (right : second.SameStore third) : first.SameStore third where
  registry := left.registry.trans right.registry
  files := left.files.trans right.files
  clock := left.clock.trans right.clock
  reachable := left.reachable.trans right.reachable
  metricNumbers := left.metricNumbers.trans right.metricNumbers
  seriesNumbers := left.seriesNumbers.trans right.seriesNumbers
  runs := left.runs.trans right.runs
  ticks := left.ticks.trans right.ticks

theorem record (st : Station) (event : Event) : st.SameStore (st.record event) :=
  ⟨rfl, rfl, rfl, rfl, rfl, rfl, rfl, rfl⟩

theorem cancel (st : Station) (token : TokenId) : st.SameStore (st.cancel token) := by
  unfold Station.cancel
  split
  · exact .refl st
  · exact ⟨rfl, rfl, rfl, rfl, rfl, rfl, rfl, rfl⟩

theorem metric? (same : st.SameStore st') (number : Nat) :
    st.metric? number = st'.metric? number := by
  rw [Station.metric?, Station.metric?, same.metricNumbers]

theorem series? (same : st.SameStore st') (number : Nat) :
    st.series? number = st'.series? number := by
  rw [Station.series?, Station.series?, same.seriesNumbers]

theorem place? (same : st.SameStore st') (place : Place) : st.place? place = st'.place? place := by
  cases place with
  | metric number => exact same.metric? number
  | besides series => rw [Station.place?, Station.place?, same.series?, same.registry]

theorem createIn (same : st.SameStore st') (metric : MetricId) (tags : List Tag)
    (value : Option Double) :
    (st.createIn metric tags value).SameStore (st'.createIn metric tags value) := by
  obtain ⟨registry, files, clock, reachable, metricNumbers, seriesNumbers, runs, ticks⟩ := same
  refine ⟨?_, files, clock, reachable, metricNumbers, ?_, runs, ticks⟩
  · simp only [Station.createIn, registry]
  · simp only [Station.createIn, registry, seriesNumbers]

theorem atSeries (same : st.SameStore st') (number : Nat)
    (change : Registry → SeriesId → Registry) :
    (st.atSeries number change).SameStore (st'.atSeries number change) := by
  unfold Station.atSeries
  rw [same.series?]
  split
  · exact { same with registry := congrArg (change · _) same.registry }
  · exact same

end SameStore

end Station

open Station (SameStore)

/-! ## Alike stations -/

/-- The stations have the same store, agree on the token of the collection, and
their journals tell the same of it. -/
structure Request.Alike (request : Request) (st st' : Station) : Prop where
  store : st.SameStore st'
  token : st.isCancelled request.token = st'.isCancelled request.token
  own : request.own st.journal.toList = request.own st'.journal.toList

/-- Two results are equal, and they leave their stations alike. -/
def Request.Agree {α : Type} (request : Request) (result result' : Station × α) : Prop :=
  result.2 = result'.2 ∧ request.Alike result.1 result'.1

/-- Whether the token is cancelled from outside behind an entry of the
collection depends on the entries of the collection only. -/
def Request.Told (request : Request) : Prop :=
  ∀ (journal journal' : Array Event) (event : Event), event.collection? = some request.number →
    request.own journal.toList = request.own journal'.toList →
    request.outside (journal.push event) = request.outside (journal'.push event)

theorem Station.isCancelled_cancel (st : Station) (token other : TokenId) :
    (st.cancel token).isCancelled other = (other == token || st.isCancelled other) := by
  unfold Station.cancel
  split
  next already =>
    cases same : other == token with
    | true =>
      obtain rfl := beq_iff_eq.mp same
      exact already
    | false => rfl
  next => simp only [Station.isCancelled, Station.record, List.contains_cons]

namespace Request

variable {request : Request} {st st' : Station}

theorem own_cancel (st : Station) (token : TokenId) :
    request.own (st.cancel token).journal.toList = request.own st.journal.toList := by
  unfold Station.cancel
  split
  · rfl
  · simp [Station.record, own, Event.collection?]

/-- Two results that agree give the same, at stations that are alike. -/
theorem Agree.cases {α : Type} {result result' : Station × α}
    (agree : request.Agree result result') :
    ∃ mid mid' value, result = (mid, value) ∧ result' = (mid', value) ∧ request.Alike mid mid' :=
  ⟨_, _, _, rfl, Prod.ext rfl agree.1.symm, agree.2⟩

namespace Alike

/-- What touches neither the journal nor the tokens. -/
theorem touch (alike : request.Alike st st') {next next' : Station} (store : next.SameStore next')
    (kept : next.journal = st.journal ∧ next.cancelled = st.cancelled)
    (kept' : next'.journal = st'.journal ∧ next'.cancelled = st'.cancelled) :
    request.Alike next next' where
  store := store
  token := by
    have agree := alike.token
    rw [Station.isCancelled, Station.isCancelled] at agree ⊢
    rw [kept.2, kept'.2, agree]
  own := by rw [kept.1, kept'.1, alike.own]

theorem record (alike : request.Alike st st') (event : Event) :
    request.Alike (st.record event) (st'.record event) where
  store := ((SameStore.record st event).symm.trans alike.store).trans (.record st' event)
  token := alike.token
  own := by
    simp only [Station.record, Array.toList_push, own_append, alike.own]

theorem cancel (alike : request.Alike st st') (token : TokenId) :
    request.Alike (st.cancel token) (st'.cancel token) where
  store := ((SameStore.cancel st token).symm.trans alike.store).trans (.cancel st' token)
  token := by rw [st.isCancelled_cancel, st'.isCancelled_cancel, alike.token]
  own := by rw [own_cancel, own_cancel, alike.own]

theorem mark (alike : request.Alike st st') (told : request.Told) (event : Event)
    (mine : event.collection? = some request.number) :
    request.Alike (request.mark st event) (request.mark st' event) := by
  have same : request.outside (st.record event).journal
      = request.outside (st'.record event).journal :=
    told _ _ event mine alike.own
  unfold Request.mark
  simp only [same]
  split
  · exact (alike.record event).cancel _
  · exact alike.record event

theorem glimpse (alike : request.Alike st st') {context : Station.Context}
    (own : context.token = request.token) :
    Station.glimpse context st = Station.glimpse context st' := by
  have store := alike.store
  simp only [Station.glimpse, store.clock, store.seriesNumbers, store.metricNumbers,
    store.registry, own, alike.token]

end Alike

/-! ## Scripts -/

theorem bulk_alike (m : MetricId) (rows : List (List Tag × Option Double))
    (alike : request.Alike st st') :
    request.Alike (rows.foldl (fun st (tags, value) => st.createIn m tags value) st)
      (rows.foldl (fun st (tags, value) => st.createIn m tags value) st') := by
  induction rows generalizing st st' with
  | nil => exact alike
  | cons row rest ih => exact ih (alike.touch (alike.store.createIn m row.1 row.2)
      ⟨rfl, rfl⟩ ⟨rfl, rfl⟩)

theorem atSeries_alike (number : Nat) (change : Registry → SeriesId → Registry)
    (alike : request.Alike st st') :
    request.Alike (st.atSeries number change) (st'.atSeries number change) := by
  have kept (st : Station) : (st.atSeries number change).journal = st.journal ∧
      (st.atSeries number change).cancelled = st.cancelled := by
    unfold Station.atSeries
    split <;> exact ⟨rfl, rfl⟩
  exact alike.touch (alike.store.atSeries number change) (kept st) (kept st')

mutual

theorem perform_agree {context : Station.Context} (own : context.token = request.token)
    {st st' : Station} (alike : request.Alike st st') :
    ∀ action : Action, request.Agree (st.perform context action) (st'.perform context action)
  | .metric name sortField => by
    have store := alike.store
    refine ⟨rfl, alike.touch ?_ ⟨rfl, rfl⟩ ⟨rfl, rfl⟩⟩
    simp only [Station.perform, store.registry, store.metricNumbers]
    exact { store with registry := rfl, metricNumbers := rfl }
  | .create place tags value => by
    simp only [Station.perform, ← alike.store.place?]
    split
    · exact ⟨rfl, alike.touch (alike.store.createIn _ tags value) ⟨rfl, rfl⟩ ⟨rfl, rfl⟩⟩
    · exact ⟨rfl, alike⟩
  | .bulk number rows => by
    simp only [Station.perform, ← alike.store.metric?]
    split
    · exact ⟨rfl, bulk_alike _ rows alike⟩
    · exact ⟨rfl, alike⟩
  | .set number value => by
    simp only [Station.perform]
    exact ⟨rfl, atSeries_alike number (fun r s => r.set s value) alike⟩
  | .add number value => by
    simp only [Station.perform]
    exact ⟨rfl, atSeries_alike number (fun r s => r.set s ((r.value s).add value)) alike⟩
  | .remove number => by
    simp only [Station.perform]
    exact ⟨rfl, atSeries_alike number (fun r s => r.remove s) alike⟩
  | .onSync actions => by
    have store := alike.store
    refine ⟨rfl, alike.touch ?_ ⟨rfl, rfl⟩ ⟨rfl, rfl⟩⟩
    simp only [Station.perform, Station.counter, store.registry, store.runs]
    exact { store with registry := rfl, runs := rfl }
  | .onAsync call body => by
    have store := alike.store
    refine ⟨rfl, alike.touch ?_ ⟨rfl, rfl⟩ ⟨rfl, rfl⟩⟩
    simp only [Station.perform, Station.counter, store.registry, store.runs]
    exact { store with registry := rfl, runs := rfl }
  | .log text => ⟨rfl, alike.record _⟩
  | .fail text runs => ⟨rfl, alike⟩
  | .cancel collection => by
    simp only [Station.perform, ← alike.store.reachable]
    split
    next token found => exact ⟨rfl, alike.cancel token⟩
    next => exact ⟨rfl, alike⟩
  | .cancelOwn => ⟨rfl, alike.cancel context.token⟩
  | .tick => by
    refine ⟨rfl, alike.touch ?_ ⟨rfl, rfl⟩ ⟨rfl, rfl⟩⟩
    exact { alike.store with ticks := congrArg (· + 1) alike.store.ticks }
  | .choose choice => by
    have seen := alike.glimpse own
    simp only [Station.perform, ← seen]
    exact performAll_agree own alike (choice (Station.glimpse context st))
  | .yield => ⟨rfl, alike⟩
  | .pending => ⟨rfl, alike⟩

theorem performAll_agree {context : Station.Context} (own : context.token = request.token)
    {st st' : Station} (alike : request.Alike st st') :
    ∀ actions : List Action,
      request.Agree (st.performAll context actions) (st'.performAll context actions)
  | [] => ⟨rfl, alike⟩
  | action :: rest => by
    obtain ⟨mid, mid', failure, first, first', alike'⟩ := (perform_agree own alike action).cases
    rw [Station.performAll, Station.performAll, first, first']
    cases failure with
    | some cause => exact ⟨rfl, alike'⟩
    | none => exact performAll_agree own alike' rest

end

/-! ## Callbacks -/

theorem start_agree (alike : request.Alike st st') (counter : Nat) :
    request.Agree (st.start counter) (st'.start counter) := by
  have store := alike.store
  refine ⟨?_, alike.touch ?_ ⟨rfl, rfl⟩ ⟨rfl, rfl⟩⟩
  · simp only [Station.start, store.runs]
  · exact { store with runs := congrArg (·.modify counter (· + 1)) store.runs }

theorem runSync_agree (alike : request.Alike st st') (callback : SyncCallback) :
    request.Agree (st.runSync request.token callback) (st'.runSync request.token callback) := by
  cases callback with
  | script counter actions =>
    obtain ⟨mid, mid', run, first, first', alike'⟩ := (start_agree alike counter).cases
    rw [Station.runSync, Station.runSync, first, first']
    exact performAll_agree rfl alike' actions
  | uptime series started =>
    have store := alike.store
    refine ⟨rfl, alike.touch ?_ ⟨rfl, rfl⟩ ⟨rfl, rfl⟩⟩
    simp only [Station.runSync, store.registry, store.clock]
    exact { store with registry := rfl, clock := rfl }

theorem call_agree (alike : request.Alike st st') (callback : AsyncCallback) :
    request.Agree (st.call request.token callback) (st'.call request.token callback) := by
  cases callback with
  | script counter actions body =>
    obtain ⟨mid, mid', run, first, first', alike'⟩ := (start_agree alike counter).cases
    have own : (Station.Context.mk request.token run).token = request.token := rfl
    obtain ⟨end_, end', failure, later, later', alike''⟩ :=
      (performAll_agree own alike' actions).cases
    simp only [Station.call, first, first', later, later']
    cases failure with
    | some cause => exact ⟨rfl, alike''⟩
    | none => exact ⟨rfl, alike''⟩
  | loadAverage path series => exact ⟨rfl, alike⟩

theorem refreshLoad_agree (alike : request.Alike st st') (path : String)
    (series : List SeriesId) :
    request.Agree (st.refreshLoad path series) (st'.refreshLoad path series) := by
  have store := alike.store
  simp only [Station.refreshLoad, ← store.files]
  split
  · exact ⟨rfl, alike⟩
  · exact ⟨rfl, alike⟩
  · split
    · exact ⟨rfl, alike⟩
    · refine ⟨rfl, alike.touch ?_ ⟨rfl, rfl⟩ ⟨rfl, rfl⟩⟩
      simp only [Station.setAll, store.registry]
      exact { store with registry := rfl }

theorem pollScript_agree {context : Station.Context} (own : context.token = request.token)
    (alike : request.Alike st st') (rest : List Action) :
    request.Agree (st.pollScript context rest) (st'.pollScript context rest) := by
  fun_induction st.pollScript context rest generalizing st' with
  | case1 st => exact ⟨rfl, alike⟩
  | case2 st rest => exact ⟨rfl, alike⟩
  | case3 st rest => exact ⟨rfl, alike⟩
  | case4 st action rest noYield noPending mid failure failed =>
    obtain ⟨_, mid', _, first, first', alike'⟩ := (perform_agree own alike action).cases
    cases failed.symm.trans first
    rw [Station.pollScript.eq_4 _ _ _ _ noYield noPending, first']
    exact ⟨rfl, alike'⟩
  | case5 st action rest noYield noPending mid done ih =>
    obtain ⟨_, mid', _, first, first', alike'⟩ := (perform_agree own alike action).cases
    cases done.symm.trans first
    rw [Station.pollScript.eq_4 _ _ _ _ noYield noPending, first']
    exact ih alike'

theorem poll_agree (alike : request.Alike st st') (body : Body) :
    request.Agree (st.poll request.token body) (st'.poll request.token body) := by
  cases body with
  | script run rest => exact pollScript_agree rfl alike rest
  | failed text => exact ⟨rfl, alike⟩
  | openFile path series => exact ⟨rfl, alike⟩
  | readFile path series =>
    obtain ⟨mid, mid', failure, first, first', alike'⟩ :=
      (refreshLoad_agree alike path series).cases
    simp only [Station.poll, first, first']
    cases failure with
    | some cause => exact ⟨rfl, alike'⟩
    | none => exact ⟨rfl, alike'⟩

/-! ## The phases of a collection -/

section Phases

variable (told : request.Told)
include told

theorem runOne_agree (alike : request.Alike st st') (index : Nat) (callback : SyncCallback) :
    request.Agree (request.runOne index st callback) (request.runOne index st' callback) := by
  obtain ⟨mid, mid', failure, first, first', alike'⟩ :=
    (runSync_agree (alike.mark told (.ran request.number index) rfl) callback).cases
  simp only [runOne, first, first']
  cases failure with
  | some cause => exact ⟨rfl, alike'.mark told _ rfl⟩
  | none => exact ⟨rfl, alike'⟩

theorem callOne_agree (alike : request.Alike st st') (index : Nat) (callback : AsyncCallback) :
    request.Agree (request.callOne index st callback) (request.callOne index st' callback) :=
  call_agree (alike.mark told _ rfl) callback

theorem pollOne_agree (alike : request.Alike st st') (index : Nat) (body : Body) :
    request.Agree (request.pollOne index st body) (request.pollOne index st' body) := by
  obtain ⟨mid, mid', turn, first, first', alike'⟩ :=
    (poll_agree (alike.mark told (.polled request.number index) rfl) body).cases
  simp only [pollOne, first, first']
  cases turn with
  | failed cause => exact ⟨rfl, alike'.mark told _ rfl⟩
  | completed => exact ⟨rfl, alike'.mark told _ rfl⟩
  | suspended body => exact ⟨rfl, alike'⟩

theorem runSyncFrom_agree (alike : request.Alike st st') (index : Nat)
    (callbacks : List SyncCallback) :
    request.Agree (request.runSyncFrom index st callbacks)
      (request.runSyncFrom index st' callbacks) := by
  induction callbacks generalizing index st st' with
  | nil => exact ⟨rfl, alike⟩
  | cons callback rest ih =>
    obtain ⟨mid, mid', failure, first, first', alike'⟩ :=
      (runOne_agree told alike index callback).cases
    rw [runSyncFrom, runSyncFrom, first, first']
    cases failure with
    | some cause => exact ⟨rfl, alike'⟩
    | none => exact ih alike' (index + 1)

theorem callFrom_agree (alike : request.Alike st st') (index : Nat)
    (callbacks : List AsyncCallback) :
    request.Agree (request.callFrom index st callbacks) (request.callFrom index st' callbacks) := by
  induction callbacks generalizing index st st' with
  | nil => exact ⟨rfl, alike⟩
  | cons callback rest ih =>
    obtain ⟨mid, mid', body, first, first', alike'⟩ :=
      (callOne_agree told alike index callback).cases
    obtain ⟨end_, end', slots, later, later', alike''⟩ := (ih alike' (index + 1)).cases
    simp only [callFrom, first, first', later, later']
    exact ⟨rfl, alike''⟩

theorem pollFrom_agree (alike : request.Alike st st') (index : Nat) (slots : List Slot) :
    request.Agree (request.pollFrom index st slots) (request.pollFrom index st' slots) := by
  induction slots generalizing index st st' with
  | nil => exact ⟨rfl, alike⟩
  | cons slot rest ih =>
    cases slot with
    | completed =>
      obtain ⟨mid, mid', result, later, later', alike'⟩ := (ih alike (index + 1)).cases
      simp only [pollFrom, later, later']
      exact ⟨rfl, alike'⟩
    | awaited body =>
      obtain ⟨mid, mid', turn, first, first', alike'⟩ :=
        (pollOne_agree told alike index body).cases
      obtain ⟨end_, end', result, later, later', alike''⟩ := (ih alike' (index + 1)).cases
      simp only [pollFrom, first, first']
      cases turn with
      | failed cause => exact ⟨rfl, alike'⟩
      | completed =>
        simp only [later, later']
        exact ⟨rfl, alike''⟩
      | suspended body =>
        simp only [later, later']
        exact ⟨rfl, alike''⟩

/-- The blocks do not depend on what the pooled buffer holds. -/
theorem write_agree (alike : request.Alike st st') (out : Bytes) (metrics : List MetricId) :
    request.Agree (request.write st out metrics) (request.write st' out metrics) := by
  induction metrics generalizing st st' out with
  | nil => exact ⟨rfl, alike⟩
  | cons m rest ih =>
    obtain ⟨pool, stepped⟩ := request.write_cons st out m rest
    obtain ⟨pool', stepped'⟩ := request.write_cons st' out m rest
    rw [stepped, stepped', ← alike.token]
    split
    · exact ⟨rfl, alike⟩
    · have marked := alike.mark told (.began request.number m) rfl
      revert marked
      generalize request.mark st (.began request.number m) = mid
      generalize request.mark st' (.began request.number m) = mid'
      intro marked
      have pooled : request.Alike { mid with pool } { mid' with pool := pool' } :=
        marked.touch { marked.store with } ⟨rfl, rfl⟩ ⟨rfl, rfl⟩
      rw [← marked.store.registry]
      exact ih pooled _

theorem finish_agree (alike : request.Alike st st') (out : Bytes) :
    request.Agree (request.finish st out) (request.finish st' out) := by
  unfold finish
  rw [← alike.token]
  split
  · exact ⟨rfl, alike⟩
  · have marked := alike.mark told (.prepared request.number) rfl
    obtain ⟨mid, mid', result, written, written', alike'⟩ :=
      (write_agree told marked out (List.range
        (request.mark st (.prepared request.number)).registry.metricCount)).cases
    simp only [← marked.store.registry, written, written']
    exact ⟨rfl, alike'⟩

theorem await_agree (alike : request.Alike st st') (out : Bytes) (slots : List Slot) :
    request.Agree (request.await st out slots) (request.await st' out slots) := by
  unfold await
  rw [← alike.token]
  split
  · exact ⟨rfl, alike⟩
  · obtain ⟨mid, mid', ⟨left, failure⟩, polled, polled', alike'⟩ :=
      (pollFrom_agree told alike 0 slots).cases
    simp only [polled, polled']
    cases failure with
    | some cause => exact ⟨rfl, alike'⟩
    | none =>
      dsimp only
      split
      · exact finish_agree told alike' out
      · exact ⟨rfl, alike'⟩

theorem begin_agree (alike : request.Alike st st') (out : Bytes) :
    request.Agree (request.begin st out) (request.begin st' out) := by
  have marked := alike.mark told (.entered request.number) rfl
  obtain ⟨mid, mid', failure, ran, ran', alike'⟩ :=
    (runSyncFrom_agree told marked 0
      (request.mark st (.entered request.number)).registry.syncCallbacks).cases
  simp only [begin, ← marked.store.registry, ran, ran']
  cases failure with
  | some cause => exact ⟨rfl, alike'⟩
  | none =>
    simp only [← alike'.store.registry]
    split
    · exact finish_agree told alike' out
    · obtain ⟨end_, end', slots, called, called', alike''⟩ :=
        (callFrom_agree told alike' 0 mid.registry.asyncCallbacks).cases
      simp only [called, called']
      exact await_agree told alike'' out slots

theorem turn_agree (alike : request.Alike st st') (granted : Bool) (out : Bytes) (phase : Phase) :
    request.Agree (request.turn granted st out phase) (request.turn granted st' out phase) := by
  cases phase with
  | waiting =>
    rw [turn, turn, ← alike.token]
    split
    · exact ⟨rfl, alike⟩
    · split
      · exact begin_agree told alike out
      · exact ⟨rfl, alike⟩
  | awaiting slots => exact await_agree told alike out slots
  | ended outcome => exact ⟨rfl, alike⟩

end Phases

end Request

/-! ## Whole collections -/

/-- The same tasks of one request stand the same at stations that are alike. -/
structure System.Alike (request : Request) (sys sys' : System) : Prop where
  station : request.Alike sys.station sys'.station
  gate : sys.gate = sys'.gate
  tasks : sys.tasks = sys'.tasks
  only : ∀ task ∈ sys.tasks, task.request = request

namespace System.Alike

variable {request : Request} {sys sys' : System}

theorem ofRequests {st st' : Station} (alike : request.Alike st st') :
    System.Alike request (.ofRequests st [request]) (.ofRequests st' [request]) where
  station := alike
  gate := rfl
  tasks := rfl
  only task member := by
    obtain rfl := List.mem_singleton.mp member
    rfl

theorem ask (alike : System.Alike request sys sys') {task : Task} (mine : task.request = request)
    (index : Nat) : sys.ask index task = sys'.ask index task := by
  rw [System.ask, System.ask, alike.gate, mine, alike.station.token]

theorem settle (alike : System.Alike request sys sys') {task : Task}
    (mine : task.request = request) (index : Nat) (gate : Gate) {mid mid' : Station}
    (reached : request.Alike mid mid') (out : Bytes) (phase : Phase) :
    System.Alike request (sys.settle index task gate mid out phase)
      (sys'.settle index task gate mid' out phase) := by
  have only : ∀ other ∈ sys.tasks.set index { task with out, phase },
      other.request = request := by
    intro other member
    rcases List.mem_or_eq_of_mem_set member with before | rfl
    · exact alike.only other before
    · exact mine
  unfold System.settle
  rw [← alike.tasks]
  cases phase with
  | ended outcome => exact ⟨reached.record _, rfl, rfl, only⟩
  | waiting => exact ⟨reached, rfl, rfl, only⟩
  | awaiting slots => exact ⟨reached, rfl, rfl, only⟩

variable (told : request.Told)
include told

theorem poll (alike : System.Alike request sys sys') (index : Nat) :
    System.Alike request (sys.poll index) (sys'.poll index) := by
  rw [System.poll, System.poll, ← alike.tasks]
  split
  · exact alike
  next task found =>
    have mine := alike.only task (List.mem_of_getElem? found)
    split
    · exact alike
    · rw [← alike.ask mine index, mine]
      obtain ⟨mid, mid', ⟨out, phase⟩, turned, turned', reached⟩ :=
        (Request.turn_agree told alike.station (sys.ask index task).2 task.out task.phase).cases
      simp only [turned, turned']
      exact alike.settle mine index _ reached out phase

theorem pollAll (alike : System.Alike request sys sys') (schedule : List Nat) :
    System.Alike request (sys.pollAll schedule) (sys'.pollAll schedule) := by
  induction schedule generalizing sys sys' with
  | nil => exact alike
  | cons index rest ih => exact ih (alike.poll told index)

theorem run (alike : System.Alike request sys sys') : System.Alike request sys.run sys'.run := by
  have round (sys sys' : System) (alike : System.Alike request sys sys') :
      System.Alike request sys.round sys'.round := by
    rw [System.round, System.round, ← alike.tasks]
    exact alike.pollAll told _
  have distance (sys sys' : System) (alike : System.Alike request sys sys') :
      sys.distance = sys'.distance := by
    rw [System.distance, System.distance, alike.tasks]
  refine System.run.induct
    (motive := fun sys => ∀ sys', System.Alike request sys sys' →
      System.Alike request sys.run sys'.run) ?closer ?still sys sys' alike
  case closer =>
    intro sys next closer ih sys' alike
    have further := round sys sys' alike
    rw [System.run.eq_1 sys, System.run.eq_1 sys', ← distance _ _ further, ← distance _ _ alike,
      if_pos closer, if_pos closer]
    exact ih sys'.round further
  case still =>
    intro sys next still sys' alike
    have further := round sys sys' alike
    rw [System.run.eq_1 sys, System.run.eq_1 sys', ← distance _ _ further, ← distance _ _ alike,
      if_neg still, if_neg still]
    exact alike

end System.Alike

/-- A collection gives the same at stations that are alike. -/
theorem Request.collect_agree {request : Request} {st st' : Station} (told : request.Told)
    (alike : request.Alike st st') :
    request.Agree (st.collect request) (st'.collect request) := by
  have alike' := (System.Alike.ofRequests alike).run told
  simp only [Station.collect, Station.serve, ← alike'.tasks]
  generalize (System.ofRequests st [request]).run.tasks = tasks
  cases tasks with
  | nil => exact ⟨rfl, alike'.station⟩
  | cons task rest => exact ⟨rfl, alike'.station⟩

end GaugeExporter
