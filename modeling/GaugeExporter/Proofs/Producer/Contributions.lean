import GaugeExporter.Proofs.Producer.Readings

/-!
# What producers contribute to a document

Every kind of producer has its own readings: the value of a gauge, the start
time and the uptime of a process, the load averages in a file.  One lemma per
kind says that an installation adds these readings, and the file that has to be
readable, and nothing else.  By induction over a configuration a registry shows
the readings of all its producers, in their order (`installAll_shows`).
-/

namespace GaugeExporter.Producer

open Binary (Double)
open Registry (assigned Fits Sound readings_refreshed_extend)

/-! ## Readings of a producer -/

/-- The file that a producer reads. -/
def loadFile? (settings : ProducerSettings) : Option String :=
  match Kind.find? settings.kind with
  | some .loadAverage => (loadPath settings.options).toOption
  | _ => none

/-- The windows in the order of their names, without values if there are no
load averages. -/
def loadReading (averages : List Double) : Reading where
  name := LoadAverage.metricName
  series := [("15m", averages[2]?), ("1m", averages[0]?), ("5m", averages[1]?)].map
    fun (window, value) => ([⟨LoadAverage.windowKey, window⟩], value.getD .nan)

/-- What a producer shows that was installed at one time and is refreshed at
another. -/
def readings (files : Files.Tree) (now clock : Nat) (settings : ProducerSettings) :
    List Reading :=
  match Kind.find? settings.kind with
  | some .static =>
    (StaticOptions.decode settings.options).toOption.toList.map fun options =>
      ⟨options.metric, [(options.tagList, options.value)]⟩
  | some .process =>
    [⟨startTimeName, [([], startTime now)]⟩, ⟨uptimeName, [([], .seconds (clock - now))]⟩]
  | some .loadAverage =>
    (loadFile? settings).toList.map fun path => loadReading (LoadAverage.values files path)
  | none => []

variable (files : Files.Tree) (now clock : Nat) {r r' : Registry} {settings : ProducerSettings}

/-- An installation added the readings of a producer to a registry, and the file
that has to be readable. -/
structure Contributes (settings : ProducerSettings) (r r' : Registry) : Prop where
  sound : r'.Sound
  readings : (r'.refreshed files clock).readings
    = (r.refreshed files clock).readings ++ readings files now clock settings
  readable : (∀ callback ∈ r'.asyncCallbacks, callback.Readable files) ↔
    (∀ callback ∈ r.asyncCallbacks, callback.Readable files) ∧
      ∀ path ∈ loadFile? settings, LoadAverage.Readable files path

theorem Contributes.of_extend {more : Addition} (sound : r.Sound) (fits : r.Fits more)
    (shown : more.readings r files clock = Producer.readings files now clock settings)
    (readable : (∀ callback ∈ more.asyncCallbacks, callback.Readable files) ↔
      ∀ path ∈ loadFile? settings, LoadAverage.Readable files path) :
    Contributes files now clock settings r (r.extend more) := by
  refine ⟨sound.extend fits, ?_, ?_⟩
  · rw [readings_refreshed_extend files clock sound fits, shown]
  · rw [← readable]
    exact List.forall_mem_append

/-! ## Kinds of producers -/

theorem gauge_fits (r : Registry) (name : String) (tags : List Tag) (value : Double) :
    r.Fits (.gauge r name tags value) := by
  have only : r.Brings (.gauge r name tags value) r.series.size :=
    ⟨Nat.le_refl _, Nat.lt_succ_self _⟩
  refine ⟨?_, by simp [Addition.gauge], by simp [Addition.gauge]⟩
  simpa [Addition.gauge] using only

theorem process_fits (r : Registry) : r.Fits (.process now r) := by
  have started : r.Brings (.process now r) (r.series.size + 0) := Registry.brings r Nat.two_pos
  have uptime : r.Brings (.process now r) (r.series.size + 1) := Registry.brings r Nat.one_lt_two
  refine ⟨?_, ?_, by simp [Addition.process]⟩
  · simpa [Addition.process] using ⟨started, uptime⟩
  · simpa [Addition.process, SyncCallback.Sets] using uptime

theorem loadAverage_fits (path : String) (r : Registry) : r.Fits (.loadAverage path r) := by
  have windows (k : Nat) (inside : k < 3) : r.Brings (.loadAverage path r) (r.series.size + k) :=
    Registry.brings r inside
  have one := windows 0 (by decide)
  have five := windows 1 (by decide)
  have fifteen := windows 2 (by decide)
  refine ⟨?_, by simp [Addition.loadAverage], ?_⟩
  · simpa [Addition.loadAverage, windowMetric] using ⟨fifteen, one, five⟩
  · simpa [Addition.loadAverage, AsyncCallback.Sets] using ⟨one, five, fifteen⟩

section Kinds

variable (sound : r.Sound)
include sound

theorem addGauge_contributes {options : StaticOptions}
    (kind : settings.kind = Kind.static.name)
    (decodes : StaticOptions.decode settings.options = .ok options) :
    Contributes files now clock settings r
      (addGauge r options.metric options.tagList options.value).1 := by
  have known : Kind.find? settings.kind = some .static := kind ▸ Kind.find?_name .static
  rw [addGauge_eq]
  refine .of_extend files now clock sound (gauge_fits r _ _ _) ?_ ?_
  · rw [readings, known, decodes]
    simp [Addition.gauge, Addition.readings, Addition.assignments, assigned, Registry.extend,
      Registry.value, Registry.tags, Except.toOption]
  · rw [loadFile?, known]
    simp [Addition.gauge]

theorem addProcess_contributes (kind : settings.kind = Kind.process.name) :
    Contributes files now clock settings r (addProcess now r) := by
  have known : Kind.find? settings.kind = some .process := kind ▸ Kind.find?_name .process
  rw [addProcess_eq]
  refine .of_extend files now clock sound (process_fits now r) ?_ ?_
  · rw [readings, known]
    simp [Addition.process, Addition.readings, Addition.assignments, assigned, Registry.extend,
      Registry.value, Registry.tags, SyncCallback.assigns]
  · rw [loadFile?, known]
    simp [Addition.process]

theorem addLoadAverage_contributes {path : String} (kind : settings.kind = Kind.loadAverage.name)
    (decodes : loadPath settings.options = .ok path) :
    Contributes files now clock settings r (addLoadAverage path r) := by
  have known : Kind.find? settings.kind = some .loadAverage :=
    kind ▸ Kind.find?_name .loadAverage
  rw [addLoadAverage_eq]
  refine .of_extend files now clock sound (loadAverage_fits path r) ?_ ?_
  · rw [readings, known, loadFile?, known, decodes]
    -- how many series get a value depends on how many values the file has
    generalize averages : LoadAverage.values files path = values
    rcases values with _ | ⟨one, _ | ⟨five, _ | ⟨fifteen, rest⟩⟩⟩ <;>
      simp [Addition.loadAverage, Addition.readings, Addition.assignments, assigned,
        Registry.extend, Registry.value, Registry.tags, AsyncCallback.assigns, Except.toOption,
        windowMetric, windowSeries, loadReading, averages]
  · rw [loadFile?, known, decodes]
    simp [Addition.loadAverage, AsyncCallback.Readable, Except.toOption]

theorem Installs.contributes (installs : Installs now r settings r' (.ok ())) :
    Contributes files now clock settings r r' := by
  cases installs with
  | static kind decodes metric tags =>
    exact addGauge_contributes files now clock sound kind decodes
  | process kind => exact addProcess_contributes files now clock sound kind
  | loadAverage kind decodes =>
    exact addLoadAverage_contributes files now clock sound kind decodes

end Kinds

/-! ## Configurations -/

/-- A registry with what these producers contribute, in their order, and nothing
else. -/
structure Shows (producers : List ProducerSettings) (r : Registry) : Prop where
  sound : r.Sound
  readings : (r.refreshed files clock).readings = producers.flatMap (readings files now clock)
  readable : (∀ callback ∈ r.asyncCallbacks, callback.Readable files) ↔
    ∀ settings ∈ producers, ∀ path ∈ loadFile? settings, LoadAverage.Readable files path

namespace Shows

theorem empty : Shows files now clock [] {} := ⟨.empty, rfl, by simp⟩

variable {files now clock} {front rest : List ProducerSettings}

theorem install (shows : Shows files now clock front r)
    (contributes : Contributes files now clock settings r r') :
    Shows files now clock (front ++ [settings]) r' where
  sound := contributes.sound
  readings := by
    rw [contributes.readings, shows.readings, List.flatMap_append, List.flatMap_singleton]
  readable := by
    rw [contributes.readable, shows.readable, List.forall_mem_append, List.forall_mem_singleton]

theorem installEach (shows : Shows files now clock front r)
    (installed : ((rest.forM (Producer.install now)).on r).2 = .ok ()) :
    Shows files now clock (front ++ rest) ((rest.forM (Producer.install now)).on r).1 := by
  induction rest generalizing front r with
  | nil =>
    rw [List.append_nil]
    exact shows
  | cons settings rest ih =>
    have installs := installs now r settings
    rw [List.forM, Installation.on_bind] at installed ⊢
    generalize (Producer.install now settings).on r = done at installs installed ⊢
    obtain ⟨mid, result⟩ := done
    cases result with
    | error e => cases installed
    | ok _ =>
      rw [List.append_cons]
      exact ih (shows.install (installs.contributes files now clock shows.sound)) installed

end Shows

/-- If all producers can be installed on a fresh registry, it shows what they
contribute. -/
theorem installAll_shows {producers : List ProducerSettings} {n : Nat}
    (installed : (installAll now {} producers).2 = .ok n) :
    Shows files now clock producers (installAll now {} producers).1 := by
  have each (fine : ((producers.forM (install now)).on {}).2 = .ok ()) :=
    (Shows.empty files now clock).installEach fine
  rw [installAll, Installation.on_bind] at installed ⊢
  generalize (producers.forM (install now)).on {} = done at each installed ⊢
  obtain ⟨r, result⟩ := done
  cases result with
  | error e => cases installed
  | ok _ => exact each rfl

end GaugeExporter.Producer
