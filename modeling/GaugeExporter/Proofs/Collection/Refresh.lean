import GaugeExporter.Proofs.Collection.Lone
import GaugeExporter.Proofs.Producer.Refreshed

/-!
# Collections that refresh a registry

The callbacks of producers assign values to series: an uptime from the clock,
load averages from a file.  A collection on a registry with no other callbacks
ends, whatever the files hold (`collect_refreshed`).  If every file is readable
it gives the document of the registry with these values, and if one is not it
fails.  It takes two turns where there are files, because every body first asks
for its file and reads it when it is polled again.
-/

namespace GaugeExporter

open Binary (Double)

/-! ## Assignments -/

namespace Registry

/-- Sets one series after another. -/
def assign (r : Registry) (pairs : List (SeriesId × Double)) : Registry :=
  pairs.foldl (fun r (s, v) => r.set s v) r

theorem assign_append (r : Registry) (front back : List (SeriesId × Double)) :
    r.assign (front ++ back) = (r.assign front).assign back := List.foldl_append

end Registry

namespace LoadAverage

/-- The file is missing, or it is a text that begins with three numbers. -/
def Readable (files : Files.Tree) (path : String) : Prop :=
  files.readText path = .error .notFound ∨
    ∃ text, files.readText path = .ok text ∧ 3 ≤ (Text.fields text.toList).length ∧
      ∀ field ∈ (Text.fields text.toList).take 3, (Double.ofText? field).isSome = true

/-- The load averages in a file, none if it is missing. -/
def values (files : Files.Tree) (path : String) : List Double :=
  match files.readText path with
  | .ok text => (parse? text).getD []
  | .error _ => []

theorem isSome_parse? (text : String) : (parse? text).isSome = true ↔
    3 ≤ (Text.fields text.toList).length ∧
      ∀ field ∈ (Text.fields text.toList).take 3, (Double.ofText? field).isSome = true := by
  unfold parse?
  match Text.fields text.toList with
  | [] => simp
  | [_] => simp
  | [_, _] => simp
  | one :: five :: fifteen :: rest =>
    cases first : Double.ofText? one <;> cases second : Double.ofText? five <;>
      cases third : Double.ofText? fifteen <;> simp [first, second, third]

end LoadAverage

/-- What a callback of a producer assigns at a time. -/
def SyncCallback.assigns (clock : Nat) : SyncCallback → List (SeriesId × Double)
  | .uptime series started => [(series, .seconds (clock - started))]
  | .script .. => []

/-- What a callback of a producer assigns from its file. -/
def AsyncCallback.assigns (files : Files.Tree) : AsyncCallback → List (SeriesId × Double)
  | .loadAverage path series => series.zip (LoadAverage.values files path)
  | .script .. => []

def AsyncCallback.Readable (files : Files.Tree) : AsyncCallback → Prop
  | .loadAverage path _ => LoadAverage.Readable files path
  | .script .. => True

/-- All that the callbacks of a registry assign. -/
def Registry.assignments (files : Files.Tree) (clock : Nat) (r : Registry) :
    List (SeriesId × Double) :=
  r.syncCallbacks.flatMap (SyncCallback.assigns clock)
    ++ r.asyncCallbacks.flatMap (AsyncCallback.assigns files)

def Registry.refreshed (files : Files.Tree) (clock : Nat) (r : Registry) : Registry :=
  r.assign (r.assignments files clock)

namespace Station

variable {st st' : Station} {path : String}

theorem refreshLoad_of_readable (readable : LoadAverage.Readable st.files path)
    (series : List SeriesId) :
    st.refreshLoad path series = (st.setAll series (LoadAverage.values st.files path), none) := by
  unfold refreshLoad LoadAverage.values
  obtain missing | ⟨text, read, numbers⟩ := readable
  · rw [missing]
    simp only [setAll, List.zip_nil_right, List.foldl_nil]
  · obtain ⟨values, parsed⟩ := Option.isSome_iff_exists.mp
      ((LoadAverage.isSome_parse? text).mpr numbers)
    simp only [read, parsed]
    rfl

theorem refreshLoad_of_unreadable (unreadable : ¬ LoadAverage.Readable st.files path)
    (series : List SeriesId) : ∃ failure, st.refreshLoad path series = (st, some failure) := by
  unfold refreshLoad
  split
  next missing => exact absurd (.inl missing) unreadable
  next fault _ _ => exact ⟨_, rfl⟩
  next text read =>
    split
    · exact ⟨_, rfl⟩
    next values parsed =>
      have numbers := (LoadAverage.isSome_parse? text).mp (by rw [parsed]; rfl)
      exact absurd (.inr ⟨text, read, numbers⟩) unreadable

/-- The station has got this registry; its files, its clock and its tokens are as
they were. -/
structure Becomes (st st' : Station) (r : Registry) : Prop where
  registry : st'.registry = r
  files : st'.files = st.files
  clock : st'.clock = st.clock
  cancelled : st'.cancelled = st.cancelled

namespace Becomes

variable {mid : Station} {r r' : Registry}

theorem refl (st : Station) : st.Becomes st st.registry := ⟨rfl, rfl, rfl, rfl⟩

theorem trans (left : st.Becomes mid r) (right : mid.Becomes st' r') : st.Becomes st' r' where
  registry := right.registry
  files := right.files.trans left.files
  clock := right.clock.trans left.clock
  cancelled := right.cancelled.trans left.cancelled

theorem isCancelled (becomes : st.Becomes st' r) (token : TokenId) :
    st'.isCancelled token = st.isCancelled token := by
  rw [Station.isCancelled, Station.isCancelled, becomes.cancelled]

end Becomes

theorem setAll_becomes (st : Station) (series : List SeriesId) (values : List Double) :
    st.Becomes (st.setAll series values) (st.registry.assign (series.zip values)) :=
  ⟨rfl, rfl, rfl, rfl⟩

end Station

namespace Request

open Station (Becomes)

variable {request : Request} {st : Station}

/-! ## Callbacks -/

section Callbacks

variable (undisturbed : request.Undisturbed)
include undisturbed

theorem mark_becomes (st : Station) (event : Event) :
    st.Becomes (request.mark st event) st.registry := by
  rw [mark, if_neg (by rw [undisturbed]; nofun)]
  exact ⟨rfl, rfl, rfl, rfl⟩

theorem runSyncFrom_assigns (index : Nat) {callbacks : List SyncCallback}
    (sets : ∀ callback ∈ callbacks, callback.Sets fun _ => True) :
    ∃ st', request.runSyncFrom index st callbacks = (st', none) ∧
      st.Becomes st' (st.registry.assign (callbacks.flatMap (SyncCallback.assigns st.clock))) := by
  induction callbacks generalizing index st with
  | nil => exact ⟨st, rfl, .refl st⟩
  | cons callback rest ih =>
    obtain ⟨mine, others⟩ := List.forall_mem_cons.mp sets
    cases callback with
    | script counter actions => exact mine.elim
    | uptime series started =>
      have marked := mark_becomes undisturbed st (.ran request.number index)
      obtain ⟨st', runs, becomes⟩ := @ih ((request.mark st (.ran request.number index)).runSync
        request.token (.uptime series started)).1 (index + 1) others
      refine ⟨st', runs, ⟨?_, becomes.files.trans marked.files,
        becomes.clock.trans marked.clock, becomes.cancelled.trans marked.cancelled⟩⟩
      rw [becomes.registry]
      simp only [Station.runSync, marked.registry, marked.clock]
      rfl

/-- The body of a callback that has not asked for its file. -/
def opened : AsyncCallback → Slot
  | .loadAverage path series => .awaited (.openFile path series)
  | .script .. => .completed

/-- The body of a callback that reads its file when it is polled. -/
def reading : AsyncCallback → Slot
  | .loadAverage path series => .awaited (.readFile path series)
  | .script .. => .completed

theorem callFrom_opens (index : Nat) {callbacks : List AsyncCallback}
    (sets : ∀ callback ∈ callbacks, callback.Sets fun _ => True) :
    ∃ st', request.callFrom index st callbacks = (st', callbacks.map opened) ∧
      st.Becomes st' st.registry := by
  induction callbacks generalizing index st with
  | nil => exact ⟨st, rfl, .refl st⟩
  | cons callback rest ih =>
    obtain ⟨mine, others⟩ := List.forall_mem_cons.mp sets
    cases callback with
    | script counter call body => exact mine.elim
    | loadAverage path series =>
      have marked := mark_becomes undisturbed st (.called request.number index)
      obtain ⟨st', calls, becomes⟩ :=
        @ih (request.mark st (.called request.number index)) (index + 1) others
      refine ⟨st', ?_, marked.trans (marked.registry ▸ becomes)⟩
      rw [callFrom, callOne, Station.call]
      simp only [calls]
      rfl

theorem pollFrom_opened (index : Nat) (callbacks : List AsyncCallback) :
    ∃ st', request.pollFrom index st (callbacks.map opened) = (st', callbacks.map reading, none) ∧
      st.Becomes st' st.registry := by
  induction callbacks generalizing index st with
  | nil => exact ⟨st, rfl, .refl st⟩
  | cons callback rest ih =>
    cases callback with
    | script counter call body =>
      obtain ⟨st', polls, becomes⟩ := @ih st (index + 1)
      refine ⟨st', ?_, becomes⟩
      rw [List.map_cons, opened, pollFrom, polls]
      rfl
    | loadAverage path series =>
      have marked := mark_becomes undisturbed st (.polled request.number index)
      obtain ⟨st', polls, becomes⟩ :=
        @ih (request.mark st (.polled request.number index)) (index + 1)
      refine ⟨st', ?_, marked.trans (marked.registry ▸ becomes)⟩
      rw [List.map_cons, opened, pollFrom, pollOne, Station.poll]
      simp only [polls]
      rfl

theorem pollOne_readable (index : Nat) {path : String}
    (readable : LoadAverage.Readable st.files path) (series : List SeriesId) :
    ∃ st', request.pollOne index st (.readFile path series) = (st', .completed) ∧
      st.Becomes st' (st.registry.assign (series.zip (LoadAverage.values st.files path))) := by
  have marked := mark_becomes undisturbed st (.polled request.number index)
  have refreshed := Station.refreshLoad_of_readable (marked.files.symm ▸ readable) series
  rw [marked.files] at refreshed
  have set := (request.mark st (.polled request.number index)).setAll_becomes series
    (LoadAverage.values st.files path)
  have done := marked.trans
    (set.trans (mark_becomes undisturbed _ (.completed request.number index)))
  rw [set.registry, marked.registry] at done
  refine ⟨_, ?_, done⟩
  rw [pollOne, Station.poll, refreshed]

theorem pollFrom_readable (index : Nat) {callbacks : List AsyncCallback}
    (readable : ∀ callback ∈ callbacks, callback.Readable st.files) :
    ∃ st', request.pollFrom index st (callbacks.map reading)
        = (st', callbacks.map fun _ => .completed, none) ∧
      st.Becomes st' (st.registry.assign (callbacks.flatMap (AsyncCallback.assigns st.files))) := by
  induction callbacks generalizing index st with
  | nil => exact ⟨st, rfl, .refl st⟩
  | cons callback rest ih =>
    obtain ⟨mine, others⟩ := List.forall_mem_cons.mp readable
    cases callback with
    | script counter call body =>
      obtain ⟨st', polls, becomes⟩ := @ih st (index + 1) others
      refine ⟨st', ?_, becomes⟩
      rw [List.map_cons, reading, pollFrom, polls]
      rfl
    | loadAverage path series =>
      obtain ⟨mid, polled, first⟩ := pollOne_readable undisturbed index mine series
      obtain ⟨st', polls, later⟩ := @ih mid (index + 1) (first.files.symm ▸ others)
      refine ⟨st', ?_, first.trans ?_⟩
      · rw [List.map_cons, reading, pollFrom, polled]
        simp only [polls]
        rfl
      · rw [first.registry, first.files, ← Registry.assign_append] at later
        exact later

theorem pollFrom_unreadable (index : Nat) {callbacks : List AsyncCallback}
    (unreadable : ¬ ∀ callback ∈ callbacks, callback.Readable st.files) :
    ∃ st' slots failure,
      request.pollFrom index st (callbacks.map reading) = (st', slots, some failure) := by
  induction callbacks generalizing index st with
  | nil => exact absurd (List.forall_mem_nil _) unreadable
  | cons callback rest ih =>
    rw [List.forall_mem_cons] at unreadable
    cases callback with
    | script counter call body =>
      obtain ⟨st', slots, failure, polls⟩ :=
        @ih st (index + 1) fun others => unreadable ⟨trivial, others⟩
      rw [List.map_cons, reading, pollFrom, polls]
      exact ⟨_, _, _, rfl⟩
    | loadAverage path series =>
      rw [List.map_cons, reading, pollFrom]
      by_cases mine : LoadAverage.Readable st.files path
      · obtain ⟨mid, polled, first⟩ := pollOne_readable undisturbed index mine series
        obtain ⟨st', slots, failure, polls⟩ :=
          @ih mid (index + 1) (first.files.symm ▸ fun others => unreadable ⟨mine, others⟩)
        simp only [polled, polls]
        exact ⟨_, _, _, rfl⟩
      · have marked := mark_becomes undisturbed st (.polled request.number index)
        obtain ⟨failure, failed⟩ :=
          Station.refreshLoad_of_unreadable (marked.files.symm ▸ mine) series
        simp only [pollOne, Station.poll, failed]
        exact ⟨_, _, _, rfl⟩

end Callbacks

/-! ## Turns -/

section Turns

variable (undisturbed : request.Undisturbed) (calm : st.isCancelled request.token = false)
include undisturbed calm

/-- Bodies that have to ask for a file first need another turn. -/
theorem await_opened {callbacks : List AsyncCallback} (some : callbacks ≠ [])
    (sets : ∀ callback ∈ callbacks, callback.Sets fun _ => True) (out : Bytes) :
    ∃ st', request.await st out (callbacks.map opened)
        = (st', out, .awaiting (callbacks.map reading)) ∧ st.Becomes st' st.registry := by
  obtain ⟨st', polls, becomes⟩ := @pollFrom_opened _ st undisturbed 0 callbacks
  have unfinished : (callbacks.map reading).all isCompleted = false := by
    cases callbacks with
    | nil => exact absurd rfl some
    | cons callback rest =>
      cases callback with
      | script counter call body => exact (sets _ List.mem_cons_self).elim
      | loadAverage path series => rfl
  refine ⟨st', ?_, becomes⟩
  rw [await, if_neg (by simp [calm]), polls]
  simp only [unfinished, Bool.false_eq_true, if_false]

theorem await_readable {callbacks : List AsyncCallback}
    (readable : ∀ callback ∈ callbacks, callback.Readable st.files) (out : Bytes) :
    ∃ st', request.await st out (callbacks.map reading) = (st',
      out ++ (st.registry.assign (callbacks.flatMap (AsyncCallback.assigns st.files))).document
        request.timestamp, .ended (.ok ())) := by
  obtain ⟨mid, polls, becomes⟩ := pollFrom_readable undisturbed 0 readable
  have finished : (callbacks.map fun _ => Slot.completed).all isCompleted = true := by
    simp [isCompleted]
  obtain ⟨st', writes⟩ :=
    finish_calm ((becomes.isCancelled request.token).trans calm) undisturbed out
  refine ⟨st', ?_⟩
  rw [await, if_neg (by simp [calm]), polls]
  simp only [finished, if_true]
  rw [writes, becomes.registry]

theorem await_unreadable {callbacks : List AsyncCallback}
    (unreadable : ¬ ∀ callback ∈ callbacks, callback.Readable st.files) (out : Bytes) :
    ∃ st' failure, request.await st out (callbacks.map reading)
      = (st', out, .ended (.error (.callback failure))) := by
  obtain ⟨st', slots, failure, polls⟩ := pollFrom_unreadable undisturbed 0 unreadable
  refine ⟨st', failure, ?_⟩
  rw [await, if_neg (by simp [calm]), polls]

end Turns

end Request

/-! ## Collections -/

namespace Registry

theorem assign_asyncCallbacks (r : Registry) (pairs : List (SeriesId × Double)) :
    (r.assign pairs).asyncCallbacks = r.asyncCallbacks :=
  List.foldlRecOn pairs _ (motive := fun r' : Registry => r'.asyncCallbacks = r.asyncCallbacks)
    rfl fun _ same _ _ => same

/-- All callbacks belong to producers. -/
structure Produced (r : Registry) : Prop where
  syncCallbacks : ∀ callback ∈ r.syncCallbacks, callback.Sets fun _ => True
  asyncCallbacks : ∀ callback ∈ r.asyncCallbacks, callback.Sets fun _ => True

end Registry

namespace Station

open Request (reading)

variable {request : Request} {st : Station} (undisturbed : request.Undisturbed)
  (calm : st.isCancelled request.token = false) (produced : st.registry.Produced)
include undisturbed calm produced

/-- The first turn assigns what the clock says and goes on to the files, if there
are any. -/
theorem first_turn : ∃ mid,
    st.Becomes mid (st.registry.assign
      (st.registry.syncCallbacks.flatMap (SyncCallback.assigns st.clock))) ∧
    (st.registry.asyncCallbacks = [] → request.turn true st request.buffer .waiting
      = request.finish mid request.buffer) ∧
    (st.registry.asyncCallbacks ≠ [] → request.turn true st request.buffer .waiting
      = request.await (request.callFrom 0 mid st.registry.asyncCallbacks).1 request.buffer
        (request.callFrom 0 mid st.registry.asyncCallbacks).2) := by
  have entered := Request.mark_becomes undisturbed st (.entered request.number)
  obtain ⟨mid, runs, ran⟩ := Request.runSyncFrom_assigns undisturbed 0
    (entered.registry.symm ▸ produced.syncCallbacks)
  rw [entered.registry, entered.clock] at ran
  have becomes := entered.trans ran
  have later := (congrArg Registry.asyncCallbacks becomes.registry).trans
    (Registry.assign_asyncCallbacks _ _)
  have turn : request.turn true st request.buffer .waiting = request.begin st request.buffer := by
    rw [Request.turn, if_neg (by simp [calm]), if_pos rfl]
  refine ⟨mid, becomes, fun empty => ?_, fun files => ?_⟩
  · rw [turn, Request.begin, runs]
    simp only [later, empty]
  · rw [turn, Request.begin, runs]
    cases callbacks : st.registry.asyncCallbacks with
    | nil => exact absurd callbacks files
    | cons callback rest => simp only [later, callbacks]

/-- A collection without files ends in its first turn. -/
theorem collect_of_no_files (empty : st.registry.asyncCallbacks = []) :
    (st.collect request).2 = ⟨request.buffer
      ++ (st.registry.refreshed st.files st.clock).document request.timestamp, some (.ok ())⟩ := by
  obtain ⟨mid, becomes, turn, -⟩ := first_turn undisturbed calm produced
  obtain ⟨st', writes⟩ := Request.finish_calm
    ((becomes.isCancelled request.token).trans calm) undisturbed request.buffer
  have ended := (turn empty).trans writes
  rw [collect_of_ended (by rw [calm]; exact ended), becomes.registry, Registry.refreshed,
    Registry.assignments, empty, List.flatMap_nil, List.append_nil]

/-- A collection with files only asks for them in its first turn. -/
theorem turn_asks (files : st.registry.asyncCallbacks ≠ []) : ∃ mid,
    request.turn true st request.buffer .waiting
      = (mid, request.buffer, .awaiting (st.registry.asyncCallbacks.map reading)) ∧
    st.Becomes mid (st.registry.assign
      (st.registry.syncCallbacks.flatMap (SyncCallback.assigns st.clock))) := by
  obtain ⟨mid, becomes, -, turn⟩ := first_turn undisturbed calm produced
  obtain ⟨called, calls, onceCalled⟩ :=
    @Request.callFrom_opens request mid undisturbed 0 _ produced.asyncCallbacks
  have untilCalled := becomes.trans (becomes.registry ▸ onceCalled)
  obtain ⟨asked, awaits, onceAsked⟩ := Request.await_opened undisturbed
    ((untilCalled.isCancelled request.token).trans calm) files produced.asyncCallbacks
    request.buffer
  refine ⟨asked, ?_, untilCalled.trans (untilCalled.registry ▸ onceAsked)⟩
  rw [turn files, calls]
  exact awaits

/-- A collection on what producers registered gives the document of the registry
with fresh values if every file is readable, and fails if one is not. -/
theorem collect_refreshed :
    ((∀ callback ∈ st.registry.asyncCallbacks, callback.Readable st.files) →
      (st.collect request).2 = ⟨request.buffer
        ++ (st.registry.refreshed st.files st.clock).document request.timestamp, some (.ok ())⟩) ∧
    ((¬ ∀ callback ∈ st.registry.asyncCallbacks, callback.Readable st.files) →
      ∃ failure, (st.collect request).2.outcome = some (.error (.callback failure))) := by
  by_cases empty : st.registry.asyncCallbacks = []
  · exact ⟨fun _ => collect_of_no_files undisturbed calm produced empty,
      fun unreadable => absurd (empty ▸ List.forall_mem_nil _) unreadable⟩
  · obtain ⟨mid, first, becomes⟩ := turn_asks undisturbed calm produced empty
    have still := (becomes.isCancelled request.token).trans calm
    constructor
    · intro readable
      obtain ⟨st', second⟩ := Request.await_readable undisturbed still
        (becomes.files.symm ▸ readable) request.buffer
      rw [collect_of_awaiting calm first second, becomes.registry, becomes.files,
        ← Registry.assign_append]
      rfl
    · intro unreadable
      obtain ⟨st', failure, second⟩ := Request.await_unreadable undisturbed still
        (becomes.files.symm ▸ unreadable) request.buffer
      exact ⟨failure, by rw [collect_of_awaiting calm first second]⟩

end Station

end GaugeExporter
