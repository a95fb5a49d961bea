import GaugeExporter.Proofs.Collection.Moments

/-!
# Registries that producers refresh

The callbacks of producers set series and nothing else.  So a registry keeps
every property that does not depend on the values of these series, whatever
files are read, in every act of a collection (`Request.spares_invariant`) and
through any schedule (`System.Bears.play`); and a collection that succeeds puts
the document of a registry with the property behind the content of its output
(`Registry.Bears.document`).
-/

namespace GaugeExporter

open Binary (Double)

/-! ## What callbacks set -/

/-- The callback sets series of this kind and does nothing else. -/
def SyncCallback.Sets (kind : SeriesId → Prop) : SyncCallback → Prop
  | .uptime series _ => kind series
  | .script .. => False

def AsyncCallback.Sets (kind : SeriesId → Prop) : AsyncCallback → Prop
  | .loadAverage _ series => ∀ s ∈ series, kind s
  | .script .. => False

def Body.Sets (kind : SeriesId → Prop) : Body → Prop
  | .openFile _ series | .readFile _ series => ∀ s ∈ series, kind s
  | .script .. | .failed .. => False

theorem SyncCallback.Sets.imp {kind kind' : SeriesId → Prop} (wider : ∀ s, kind s → kind' s)
    {callback : SyncCallback} (sets : callback.Sets kind) : callback.Sets kind' := by
  cases callback with
  | uptime series started => exact wider series sets
  | script counter actions => exact sets

theorem AsyncCallback.Sets.imp {kind kind' : SeriesId → Prop} (wider : ∀ s, kind s → kind' s)
    {callback : AsyncCallback} (sets : callback.Sets kind) : callback.Sets kind' := by
  cases callback with
  | loadAverage path series => exact fun s member => wider s (sets s member)
  | script counter call body => exact sets

namespace Registry

/-- A property of registries that does not depend on the values of the series
that it spares. -/
structure Feature where
  holds : Registry → Prop
  spares : SeriesId → Prop
  set {r : Registry} {s : SeriesId} (spared : spares s) (held : holds r) (value : Double) :
    holds (r.set s value)

/-- A registry has a feature, and its callbacks do not touch it. -/
structure Bears (feature : Feature) (r : Registry) : Prop where
  holds : feature.holds r
  syncCallbacks : ∀ callback ∈ r.syncCallbacks, callback.Sets feature.spares
  asyncCallbacks : ∀ callback ∈ r.asyncCallbacks, callback.Sets feature.spares

variable {feature : Feature} {r : Registry}

theorem Bears.set (bears : r.Bears feature) {s : SeriesId} (spared : feature.spares s)
    (value : Double) : (r.set s value).Bears feature where
  holds := feature.set spared bears.holds value
  syncCallbacks := bears.syncCallbacks
  asyncCallbacks := bears.asyncCallbacks

end Registry

open Registry (Feature)

namespace Station

variable {feature : Feature} {st : Station}

theorem runSync_bears (bears : st.registry.Bears feature) (token : TokenId)
    {callback : SyncCallback} (sets : callback.Sets feature.spares) :
    (st.runSync token callback).1.registry.Bears feature := by
  cases callback with
  | script counter actions => exact sets.elim
  | uptime series started => exact bears.set sets _

theorem call_bears (bears : st.registry.Bears feature) (token : TokenId)
    {callback : AsyncCallback} (sets : callback.Sets feature.spares) :
    (st.call token callback).1.registry.Bears feature ∧
      (st.call token callback).2.Sets feature.spares := by
  cases callback with
  | script counter call body => exact sets.elim
  | loadAverage path series => exact ⟨bears, sets⟩

theorem setAll_bears (bears : st.registry.Bears feature) {series : List SeriesId}
    (spared : ∀ s ∈ series, feature.spares s) (values : List Double) :
    (st.setAll series values).registry.Bears feature := by
  rw [setAll]
  exact List.foldlRecOn _ _ bears fun _ bears pair member =>
    bears.set (spared pair.1 (List.of_mem_zip member).1) pair.2

theorem refreshLoad_bears (bears : st.registry.Bears feature) (path : String)
    {series : List SeriesId} (spared : ∀ s ∈ series, feature.spares s) :
    (st.refreshLoad path series).1.registry.Bears feature := by
  unfold refreshLoad
  split
  · exact bears
  · exact bears
  · split
    · exact bears
    · exact setAll_bears bears spared _

theorem poll_bears (bears : st.registry.Bears feature) (token : TokenId) {body : Body}
    (sets : body.Sets feature.spares) :
    (st.poll token body).1.registry.Bears feature ∧
      ∀ rest, (st.poll token body).2 = .suspended rest → rest.Sets feature.spares := by
  cases body with
  | script run rest => exact sets.elim
  | failed text => exact sets.elim
  | openFile path series => exact ⟨bears, fun rest same => by cases same; exact sets⟩
  | readFile path series =>
    have refreshed := refreshLoad_bears bears path sets
    rw [poll]
    split
    next failed => rw [failed] at refreshed; exact ⟨refreshed, fun rest same => by cases same⟩
    next done => rw [done] at refreshed; exact ⟨refreshed, fun rest same => by cases same⟩

end Station

/-! ## Turns -/

namespace Request

variable {feature : Feature}

/-- The registry of a bench has a feature, and neither its callbacks nor the bodies that are
awaited touch it. -/
structure Spares (feature : Feature) (bench : Bench) : Prop where
  registry : bench.station.registry.Bears feature
  bodies : AllAwaited (Body.Sets feature.spares) bench.slots

/-- Every act of a collection spares the feature. -/
theorem spares_invariant (request : Request) : request.Invariant (Spares feature) where
  mark before event := by
    refine ⟨?_, before.bodies⟩
    rw [registry_mark]
    exact before.registry
  pool before _ := ⟨before.registry, before.bodies⟩
  ran before callback registered :=
    ⟨Station.runSync_bears before.registry _ (before.registry.syncCallbacks callback registered),
      before.bodies⟩
  called before callback registered := by
    obtain ⟨registry, sets⟩ := Station.call_bears before.registry request.token
      (before.registry.asyncCallbacks callback registered)
    exact ⟨registry, before.bodies.concat sets⟩
  polled before i body awaited := by
    obtain ⟨registry, suspended⟩ := Station.poll_bears before.registry request.token
      (before.bodies body (List.mem_of_getElem? awaited))
    exact ⟨registry, before.bodies.placed suspended i⟩

theorem turn_bears (request : Request) {st : Station} (bears : st.registry.Bears feature)
    (granted : Bool) (out : Bytes) {phase : Phase} (sets : phase.All (Body.Sets feature.spares)) :
    (request.turn granted st out phase).1.registry.Bears feature ∧
      (request.turn granted st out phase).2.2.All (Body.Sets feature.spares) := by
  obtain ⟨slots, awaits, bodies⟩ := sets.awaits
  obtain ⟨slots', after, awaits'⟩ :=
    request.spares_invariant.turn ⟨bears, bodies⟩ granted out awaits
  exact ⟨after.registry, awaits'.all after.bodies⟩

end Request

/-! ## Systems -/

/-- A move that leaves the registry to the collections. -/
def Move.Quiet : Move → Prop
  | .poll _ => True
  | .deed d => ∀ st, (d.run st).registry = st.registry

namespace System

structure Bears (feature : Feature) (sys : System) : Prop where
  registry : sys.station.registry.Bears feature
  tasks : ∀ task ∈ sys.tasks, task.phase.All (Body.Sets feature.spares)

variable {feature : Feature} {sys : System}

theorem Bears.ofRequests {start : Station} (bears : start.registry.Bears feature)
    (requests : List Request) : (System.ofRequests start requests).Bears feature where
  registry := bears
  tasks task member := by
    obtain ⟨request, -, rfl⟩ := List.mem_map.mp member
    trivial

/-- A task that goes on or ends. -/
theorem Bears.store (bears : sys.Bears feature) {st : Station}
    (registry : st.registry.Bears feature) (index : Nat) {task : Task}
    (sets : task.phase.All (Body.Sets feature.spares)) (gate : Gate) :
    Bears feature ⟨st, gate, sys.tasks.set index task⟩ where
  registry := registry
  tasks other inside := by
    rcases List.mem_or_eq_of_mem_set inside with before | rfl
    · exact bears.tasks other before
    · exact sets

theorem Bears.advance (bears : sys.Bears feature) {index : Nat} {task : Task}
    (found : sys.tasks[index]? = some task) (gate : Gate) :
    (sys.advance index task gate).Bears feature := by
  obtain ⟨registry, sets⟩ := task.request.turn_bears bears.registry true task.out
    (bears.tasks task (List.mem_of_getElem? found))
  obtain ⟨moment, turn⟩ : ∃ moment, task.request.next true (task.moment sys.station) = moment :=
    ⟨_, rfl⟩
  have stored (gate : Gate) : Bears feature ⟨moment.station, gate,
      sys.tasks.set index { task with out := moment.out, phase := moment.phase }⟩ := by
    subst turn
    exact bears.store registry index sets gate
  obtain goesOn | ⟨outcome, ended⟩ := moment.phase.open_or_ended
  · rw [advance_open turn goesOn]
    exact stored gate
  · rw [advance_ended turn ended]
    exact ⟨(stored gate).registry, (stored gate).tasks⟩

theorem Bears.poll (bears : sys.Bears feature) (index : Nat) : (sys.poll index).Bears feature := by
  have polled := sys.polls index
  generalize sys.poll index = next at polled ⊢
  cases polled with
  | idle nothing => exact bears
  | refused found waiting cancelled =>
    refine bears.store ?_ index ?_ _
    · exact bears.registry
    · trivial
  | queued found waiting calm denied => exact ⟨bears.registry, bears.tasks⟩
  | entered found waiting calm granted => exact bears.advance found _
  | resumed found awaiting => exact bears.advance found _

theorem Bears.play (bears : sys.Bears feature) {moves : List Move}
    (quiet : ∀ move ∈ moves, move.Quiet) : (sys.play moves).Bears feature := by
  induction moves generalizing sys with
  | nil => exact bears
  | cons move rest ih =>
    refine ih ?_ fun other member => quiet other (List.mem_cons_of_mem _ member)
    cases move with
    | poll index => exact bears.poll index
    | deed d =>
      have same := quiet _ List.mem_cons_self sys.station
      exact ⟨by rw [move, same]; exact bears.registry, bears.tasks⟩

end System

/-- Whatever collections there are and however they are polled: one that succeeds puts the
document of a registry with the feature behind the content of its output. -/
theorem Registry.Bears.document {feature : Feature} {start : Station}
    (bears : start.registry.Bears feature) (requests : List Request) {moves : List Move}
    (quiet : ∀ move ∈ moves, move.Quiet) {task : Task}
    (member : task ∈ ((System.ofRequests start requests).play moves).tasks)
    (succeeded : task.phase = .ended (.ok ())) :
    ∃ r, feature.holds r ∧
      task.out = task.request.buffer ++ r.document task.request.timestamp := by
  obtain ⟨front, part, wrote⟩ := System.document_of_succeeded start requests member succeeded
  have sparing := (System.Bears.ofRequests bears requests).play fun move inside =>
    quiet move (part.subset inside)
  exact ⟨_, sparing.registry.holds, wrote⟩

end GaugeExporter
