import GaugeExporter.Proofs.Collection.Effects
import GaugeExporter.Proofs.Collection.Exclusion

/-!
# What collections and scripts keep

Whoever uses a station does it in a few ways only: scripts make metrics and series and
change those that they have numbers for, and the callbacks of producers set series of
their own.  A property that each of these changes keeps is an `Upkeep`; it is kept by
every action (`perform_keeps`), by every turn of a collection (`turn_keeps`) and
through every schedule (`Upkeep.Upholds.play`).
-/

namespace GaugeExporter

open Binary (Double)
open Station (Background)

/-! ## Properties that are kept -/

/-- A property of stations that every change keeps which callbacks and scripts make, as
long as the files are of a kind. -/
structure Upkeep where
  holds : Station → Prop
  admits : Files.Tree → Prop
  same {st st' : Station} (held : holds st) (registry : st'.registry = st.registry)
    (files : st'.files = st.files) (metricNumbers : st'.metricNumbers = st.metricNumbers)
    (seriesNumbers : st'.seriesNumbers = st.seriesNumbers) : holds st'
  world {st : Station} (held : holds st) {files : Files.Tree} (admitted : admits files) :
    holds { st with files }
  metric {st : Station} (held : holds st) (name : String) (sortField : Option String) :
    holds { st with
      registry := (st.registry.addMetric name sortField).1
      metricNumbers := st.metricNumbers.push st.registry.metrics.size }
  create {st : Station} (held : holds st) {place : Place} {m : MetricId}
    (mine : st.place? place = some m) (tags : List Tag) :
    holds { st with
      registry := (st.registry.create m tags).1
      seriesNumbers := st.seriesNumbers.push st.registry.series.size }
  set {st : Station} (held : holds st) {number : Nat} {s : SeriesId}
    (mine : st.series? number = some s) (value : Double) :
    holds { st with registry := st.registry.set s value }
  remove {st : Station} (held : holds st) {number : Nat} {s : SeriesId}
    (mine : st.series? number = some s) : holds { st with registry := st.registry.remove s }
  onSync {st : Station} (held : holds st) (counter : Nat) (actions : List Action) :
    holds { st with registry := st.registry.onSync (.script counter actions) }
  onAsync {st : Station} (held : holds st) (counter : Nat) (call body : List Action) :
    holds { st with registry := st.registry.onAsync (.script counter call body) }
  uptime {st : Station} (held : holds st) {s : SeriesId} {started : Nat}
    (registered : .uptime s started ∈ st.registry.syncCallbacks) (value : Double) :
    holds { st with registry := st.registry.set s value }
  refresh {st : Station} (held : holds st) {path text : String} {series : List SeriesId}
    {values : List Double} (registered : .loadAverage path series ∈ st.registry.asyncCallbacks)
    (read : st.files.readText path = .ok text)
    (understood : LoadAverage.parse? text = some values) : holds (st.setAll series values)

/-- The callback that a body of a producer belongs to is registered. -/
def Body.Registered (r : Registry) : Body → Prop
  | .script .. | .failed _ => True
  | .openFile path series | .readFile path series => .loadAverage path series ∈ r.asyncCallbacks

theorem Body.Registered.later {r r' : Registry} (grown : r.asyncCallbacks <+: r'.asyncCallbacks)
    {body : Body} (registered : body.Registered r) : body.Registered r' := by
  cases body with
  | script run rest => trivial
  | failed text => trivial
  | openFile path series => exact grown.subset registered
  | readFile path series => exact grown.subset registered

theorem Station.Background.asyncCallbacks {st st' : Station} (background : Background st st') :
    st.registry.asyncCallbacks <+: st'.registry.asyncCallbacks := by
  obtain ⟨events, since, -⟩ := background
  exact since.asyncCallbacks

namespace Upkeep

variable (u : Upkeep) {st : Station}

/-! ## Actions -/

theorem createIn_keeps (held : u.holds st) {place : Place} {m : MetricId}
    (mine : st.place? place = some m) (tags : List Tag) (value : Option Double) :
    u.holds (st.createIn m tags value) := by
  have created := u.create held mine tags
  cases value with
  | none => exact created
  | some v =>
    have newest : (st.seriesNumbers.push st.registry.series.size)[st.seriesNumbers.size]?
        = some st.registry.series.size := Array.getElem?_push_size
    exact u.set created newest v

theorem bulk_keeps (held : u.holds st) {number : Nat} {m : MetricId}
    (mine : st.metric? number = some m) (rows : List (List Tag × Option Double)) :
    u.holds (rows.foldl (fun st (tags, value) => st.createIn m tags value) st) := by
  refine (List.foldlRecOn rows _
    (motive := fun st' : Station => u.holds st' ∧ st'.metric? number = some m) ⟨held, mine⟩ ?_).1
  rintro st' ⟨held, mine⟩ ⟨tags, value⟩ -
  have place : st'.place? (.metric number) = some m := mine
  exact ⟨u.createIn_keeps held place tags value, mine⟩

theorem atSeries_keeps (held : u.holds st) (number : Nat)
    {change : Registry → SeriesId → Registry}
    (keeps : ∀ s, st.series? number = some s →
      u.holds { st with registry := change st.registry s }) :
    u.holds (st.atSeries number change) := by
  unfold Station.atSeries
  split
  next s mine => exact keeps s mine
  · exact held

theorem cancel_keeps (held : u.holds st) (token : TokenId) : u.holds (st.cancel token) := by
  unfold Station.cancel
  split
  · exact held
  · exact u.same held rfl rfl rfl rfl

variable (context : Station.Context)

mutual

theorem perform_keeps {st : Station} (held : u.holds st) : ∀ action : Action,
    u.holds (st.perform context action).1
  | .metric name sortField => u.metric held name sortField
  | .create place tags value => by
    simp only [Station.perform]
    split
    next mine => exact u.createIn_keeps held mine tags value
    · exact held
  | .bulk number rows => by
    simp only [Station.perform]
    split
    next mine => exact u.bulk_keeps held mine rows
    · exact held
  | .set number value => by
    show u.holds (st.atSeries number fun r s => r.set s value)
    refine u.atSeries_keeps held number fun _ mine => ?_
    exact u.set held mine value
  | .add number value => by
    show u.holds (st.atSeries number fun r s => r.set s ((r.value s).add value))
    refine u.atSeries_keeps held number fun _ mine => ?_
    exact u.set held mine _
  | .remove number => by
    show u.holds (st.atSeries number fun r s => r.remove s)
    exact u.atSeries_keeps held number fun _ mine => u.remove held mine
  | .onSync actions => by
    have counted : u.holds st.counter.1 := u.same held rfl rfl rfl rfl
    exact u.onSync counted st.counter.2 actions
  | .onAsync call body => by
    have counted : u.holds st.counter.1 := u.same held rfl rfl rfl rfl
    exact u.onAsync counted st.counter.2 call body
  | .log text => u.same held rfl rfl rfl rfl
  | .fail .. | .yield | .pending => held
  | .cancel collection => by
    simp only [Station.perform]
    split
    · exact u.cancel_keeps held _
    · exact held
  | .cancelOwn => u.cancel_keeps held _
  | .tick => u.same held rfl rfl rfl rfl
  | .choose choice => performAll_keeps held (choice (st.glimpse context))

theorem performAll_keeps {st : Station} (held : u.holds st) : ∀ actions : List Action,
    u.holds (st.performAll context actions).1
  | [] => held
  | action :: rest => by
    have first := perform_keeps held action
    rw [Station.performAll]
    split
    next failed => rw [failed] at first; exact first
    next done =>
      rw [done] at first
      exact performAll_keeps first rest

end

/-! ## Callbacks -/

variable (token : TokenId)

theorem start_keeps (held : u.holds st) (counter : Nat) : u.holds (st.start counter).1 :=
  u.same held rfl rfl rfl rfl

theorem runSync_keeps (held : u.holds st) {callback : SyncCallback}
    (registered : callback ∈ st.registry.syncCallbacks) :
    u.holds (st.runSync token callback).1 := by
  cases callback with
  | script counter actions => exact u.performAll_keeps _ (u.start_keeps held counter) actions
  | uptime series started => exact u.uptime held registered _

theorem call_keeps (held : u.holds st) (callback : AsyncCallback) :
    u.holds (st.call token callback).1 := by
  cases callback with
  | script counter actions body =>
    have performed := u.performAll_keeps ⟨token, (st.start counter).2⟩
      (u.start_keeps held counter) actions
    simp only [Station.call]
    split
    next done => rw [done] at performed; exact performed
    next failed => rw [failed] at performed; exact performed
  | loadAverage path series => exact held

theorem call_registered {callback : AsyncCallback}
    (registered : callback ∈ st.registry.asyncCallbacks) :
    (st.call token callback).2.Registered (st.call token callback).1.registry := by
  cases callback with
  | script counter actions body =>
    simp only [Station.call]
    split <;> trivial
  | loadAverage path series => exact registered

theorem refreshLoad_keeps (held : u.holds st) {path : String} {series : List SeriesId}
    (registered : .loadAverage path series ∈ st.registry.asyncCallbacks) :
    u.holds (st.refreshLoad path series).1 := by
  unfold Station.refreshLoad
  split
  · exact held
  · exact held
  next text read =>
    split
    · exact held
    next values understood => exact u.refresh held registered read understood

theorem pollScript_keeps (held : u.holds st) (rest : List Action) :
    u.holds (st.pollScript context rest).1 := by
  fun_induction Station.pollScript context st rest with
  | case1 st => exact held
  | case2 st => exact held
  | case3 st => exact held
  | case4 st action rest _ _ mid failure failed =>
    have first := u.perform_keeps context held action
    rw [failed] at first
    exact first
  | case5 st action rest _ _ mid done ih =>
    have first := u.perform_keeps context held action
    rw [done] at first
    exact ih first

theorem pollScript_suspended {rest : List Action} {body : Body}
    (suspended : (st.pollScript context rest).2 = .suspended body) (r : Registry) :
    body.Registered r := by
  fun_induction Station.pollScript context st rest with
  | case1 st => cases suspended
  | case2 st => cases suspended; trivial
  | case3 st => cases suspended; trivial
  | case4 => cases suspended
  | case5 st action rest _ _ mid done ih => exact ih suspended

theorem poll_keeps (held : u.holds st) {body : Body} (registered : body.Registered st.registry) :
    u.holds (st.poll token body).1 := by
  cases body with
  | script run rest => exact u.pollScript_keeps _ held rest
  | failed text => exact held
  | openFile path series => exact held
  | readFile path series =>
    have refreshed := u.refreshLoad_keeps held registered
    simp only [Station.poll]
    split
    next failed => rw [failed] at refreshed; exact refreshed
    next done => rw [done] at refreshed; exact refreshed

theorem poll_suspended {body rest : Body} (registered : body.Registered st.registry)
    (suspended : (st.poll token body).2 = .suspended rest) : rest.Registered st.registry := by
  cases body with
  | script run actions => exact pollScript_suspended _ suspended _
  | failed text => cases suspended
  | openFile path series =>
    cases suspended
    exact registered
  | readFile path series =>
    simp only [Station.poll] at suspended
    split at suspended <;> cases suspended

/-! ## Acts of a collection -/

/-- A station has the property, and the bodies that are awaited are registered there. -/
structure Tends (u : Upkeep) (bench : Bench) : Prop where
  station : u.holds bench.station
  bodies : AllAwaited (Body.Registered bench.station.registry) bench.slots

variable {u} {request : Request}

theorem Tends.later {st st' : Station} {slots : List Slot} (before : u.Tends ⟨st, slots⟩)
    (held : u.holds st') (background : Background st st') : u.Tends ⟨st', slots⟩ :=
  ⟨held, before.bodies.imp fun _ registered => registered.later background.asyncCallbacks⟩

/-- Every act keeps the property. -/
theorem invariant (u : Upkeep) (request : Request) : request.Invariant u.Tends where
  mark {st slots} before event := by
    have still : request.Still st (request.mark st event) := .mark st event
    refine ⟨u.same before.station still.store.registry.symm still.store.files.symm
      still.store.metricNumbers.symm still.store.seriesNumbers.symm, ?_⟩
    rw [request.registry_mark]
    exact before.bodies
  pool before _ := ⟨u.same before.station rfl rfl rfl rfl, before.bodies⟩
  ran before _ registered :=
    before.later (u.runSync_keeps _ before.station registered) (Station.runSync_background ..)
  called {st slots} before callback registered := by
    have after := before.later (u.call_keeps request.token before.station callback)
      (Station.call_background ..)
    exact ⟨after.station, after.bodies.concat (call_registered _ registered)⟩
  polled {st slots} before i body awaited := by
    have registered := before.bodies body (List.mem_of_getElem? awaited)
    have background := Station.poll_background request.token st body
    have after := before.later (u.poll_keeps _ before.station registered) background
    refine ⟨after.station, after.bodies.placed (fun rest suspended => ?_) i⟩
    exact (poll_suspended _ registered suspended).later background.asyncCallbacks

end Upkeep

/-! ## Turns of a collection -/

/-- The bodies that a collection awaits are registered. -/
def Phase.Registered (r : Registry) (phase : Phase) : Prop := phase.All (Body.Registered r)

theorem Phase.Registered.later {r r' : Registry} (grown : r.asyncCallbacks <+: r'.asyncCallbacks)
    {phase : Phase} (registered : phase.Registered r) : phase.Registered r' := by
  obtain ⟨slots, awaits, bodies⟩ := registered.awaits
  exact awaits.all (bodies.imp fun _ there => there.later grown)

namespace Request

variable (request : Request)

theorem turn_keeps (u : Upkeep) {st : Station} (held : u.holds st) (granted : Bool) (out : Bytes)
    {phase : Phase} (registered : phase.Registered st.registry) :
    let result := request.turn granted st out phase
    u.holds result.1 ∧ result.2.2.Registered result.1.registry ∧
      st.registry.asyncCallbacks <+: result.1.registry.asyncCallbacks := by
  obtain ⟨slots, awaits, bodies⟩ := registered.awaits
  obtain ⟨events, slots', acts, awaits'⟩ := request.turn_goes st out slots granted awaits
  obtain ⟨all, since, -⟩ := acts.journaled
  have after := (u.invariant request).acts acts ⟨held, bodies⟩
  exact ⟨after.station, awaits'.all after.bodies, since.asyncCallbacks⟩

end Request

/-! ## Systems -/

/-- The files that a move leaves are of the kind. -/
def Move.Admitted (u : Upkeep) : Move → Prop
  | .deed (.world _ files) => u.admits files
  | _ => True

namespace Upkeep

variable {u : Upkeep}

/-- The station of a system has the property, and what its tasks await is registered. -/
structure Upholds (u : Upkeep) (sys : System) : Prop where
  station : u.holds sys.station
  registered : ∀ task ∈ sys.tasks, task.phase.Registered sys.station.registry

variable {sys : System}

theorem Upholds.ofRequests {start : Station} (held : u.holds start) (requests : List Request) :
    u.Upholds (System.ofRequests start requests) where
  station := held
  registered task member := by
    obtain ⟨request, -, rfl⟩ := List.mem_map.mp member
    trivial

theorem Upholds.aside (upholds : u.Upholds sys) {st : Station} (held : u.holds st)
    (grown : sys.station.registry.asyncCallbacks <+: st.registry.asyncCallbacks) :
    u.Upholds { sys with station := st } where
  station := held
  registered task member := (upholds.registered task member).later grown

/-- A task that goes on or ends. -/
theorem Upholds.store (upholds : u.Upholds sys) (index : Nat) {task : Task} {st : Station}
    (held : u.holds st) (registered : task.phase.Registered st.registry)
    (grown : sys.station.registry.asyncCallbacks <+: st.registry.asyncCallbacks) (gate : Gate) :
    u.Upholds ⟨st, gate, sys.tasks.set index task⟩ where
  station := held
  registered other inside := by
    rcases List.mem_or_eq_of_mem_set inside with before | rfl
    · exact (upholds.registered other before).later grown
    · exact registered

theorem Upholds.advance (upholds : u.Upholds sys) {index : Nat} {task : Task}
    (found : sys.tasks[index]? = some task) (gate : Gate) :
    u.Upholds (sys.advance index task gate) := by
  obtain ⟨moment, turn⟩ : ∃ moment, task.request.next true (task.moment sys.station) = moment :=
    ⟨_, rfl⟩
  have stored (gate : Gate) : u.Upholds ⟨moment.station, gate,
      sys.tasks.set index { task with out := moment.out, phase := moment.phase }⟩ := by
    subst turn
    obtain ⟨held, registered, grown⟩ := task.request.turn_keeps u upholds.station true task.out
      (upholds.registered task (List.mem_of_getElem? found))
    exact upholds.store index held registered grown gate
  obtain goesOn | ⟨outcome, ended⟩ := moment.phase.open_or_ended
  · rw [System.advance_open turn goesOn]
    exact stored gate
  · rw [System.advance_ended turn ended]
    exact (stored (gate.leave index)).aside
      (u.same (stored gate).station rfl rfl rfl rfl) (List.prefix_refl _)

theorem Upholds.poll (upholds : u.Upholds sys) (index : Nat) : u.Upholds (sys.poll index) := by
  have polled := sys.polls index
  generalize sys.poll index = next at polled ⊢
  cases polled with
  | idle nothing => exact upholds
  | refused found waiting cancelled =>
    refine upholds.store index ?_ ?_ ?_ _
    · exact u.same upholds.station rfl rfl rfl rfl
    · trivial
    · exact List.prefix_refl _
  | queued found waiting calm denied => exact ⟨upholds.station, upholds.registered⟩
  | entered found waiting calm granted => exact upholds.advance found _
  | resumed found awaiting => exact upholds.advance found _

theorem Upholds.move (upholds : u.Upholds sys) {move : Move} (admitted : move.Admitted u) :
    u.Upholds (sys.move move) := by
  cases move with
  | poll index => exact upholds.poll index
  | deed d =>
    refine upholds.aside ?_ (d.background sys.station).asyncCallbacks
    cases d with
    | act context actions => exact u.performAll_keeps context upholds.station actions
    | world clock files =>
      have held := u.world upholds.station admitted
      exact u.same held rfl rfl rfl rfl

theorem Upholds.play (upholds : u.Upholds sys) {moves : List Move}
    (admitted : ∀ move ∈ moves, move.Admitted u) : u.Upholds (sys.play moves) := by
  induction moves generalizing sys with
  | nil => exact upholds
  | cons move rest ih =>
    exact ih (upholds.move (admitted move List.mem_cons_self)) fun other member =>
      admitted other (List.mem_cons_of_mem _ member)

end Upkeep

end GaugeExporter
