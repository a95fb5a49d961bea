import GaugeExporter.Proofs.Collection.Refresh
import GaugeExporter.Proofs.Exposition.Document
import GaugeExporter.Proofs.Producer.Additions

/-!
# What the documents of producers show

A document shows the readings of a registry that have a finite value
(`emitted_eq`).  After all callbacks these are the values that were assigned
last (`value_assign`).  What is added to a registry sets series of its own only,
so it has no say in the readings that are there, and what is there has none in
the new ones (`readings_refreshed_extend`).
-/

namespace GaugeExporter

open Binary (Double)
open Exposition (Family)

/-! ## Readings -/

/-- A metric with its live series in list order, each with its tags and its
value. -/
structure Reading where
  name : String
  series : List (List Tag × Double)

namespace Reading

/-- Some value is finite. -/
def present (reading : Reading) : Bool := reading.series.any (·.2.isFinite)

/-- What a document shows of the metric. -/
def family (timestamp : Int) (reading : Reading) : Family where
  name := reading.name
  samples := (reading.series.filter (·.2.isFinite)).map fun (tags, value) =>
    ⟨tags, value, timestamp⟩

end Reading

namespace Registry

variable (r : Registry)

def reading (metric : Metric) : Reading where
  name := metric.name
  series := metric.live.map fun s => (r.tags s, r.value s)

def readings : List Reading := r.metrics.toList.map r.reading

theorem family?_eq (timestamp : Int) (metric : Metric) :
    r.family? timestamp metric = if (r.reading metric).present
      then some ((r.reading metric).family timestamp) else none := by
  have shown : (r.reading metric).series.filter (·.2.isFinite)
      = (r.finiteSeries metric).map fun s => (r.tags s, r.value s) := List.filter_map
  have present : (r.reading metric).present = !(r.finiteSeries metric).isEmpty := by
    rw [Bool.eq_iff_iff]
    simp [Reading.present, reading, finiteSeries]
  rw [family?, present, Reading.family, shown]
  cases r.finiteSeries metric with
  | nil => rfl
  | cons s rest => simp [sample, reading]

theorem emitted_eq (timestamp : Int) : r.emitted timestamp
    = (r.readings.filter Reading.present).map (Reading.family timestamp) := by
  rw [emitted, readings]
  induction r.metrics.toList with
  | nil => rfl
  | cons metric rest ih =>
    rw [List.map_cons, List.filter_cons]
    split
    next present =>
      rw [List.filterMap_cons_some ((r.family?_eq timestamp metric).trans (if_pos present)), ih]
      rfl
    next absent =>
      rw [List.filterMap_cons_none ((r.family?_eq timestamp metric).trans (if_neg absent)), ih]

/-! ## Values behind assignments -/

@[simp] theorem metrics_assign (pairs : List (SeriesId × Double)) :
    (r.assign pairs).metrics = r.metrics :=
  List.foldlRecOn pairs _ (motive := fun r' : Registry => r'.metrics = r.metrics) rfl
    fun _ same _ _ => same

theorem tags_set (s t : SeriesId) (value : Double) : (r.set s value).tags t = r.tags t := by
  rw [tags, tags, set, Array.getElem?_modify]
  split
  · rw [Option.map_map]
    rfl
  · rfl

@[simp] theorem tags_assign (pairs : List (SeriesId × Double)) (s : SeriesId) :
    (r.assign pairs).tags s = r.tags s :=
  List.foldlRecOn pairs _ (motive := fun r' : Registry => r'.tags s = r.tags s) rfl
    fun r' same _ _ => (r'.tags_set _ _ _).trans same

theorem Tidy.assign {r : Registry} (tidy : r.Tidy) (pairs : List (SeriesId × Double)) :
    (r.assign pairs).Tidy :=
  List.foldlRecOn pairs _ tidy fun _ tidy pair _ => tidy.set pair.1 pair.2

/-- The values that a series is given, one after another. -/
def assigned (pairs : List (SeriesId × Double)) (s : SeriesId) : List Double :=
  (pairs.filter (·.1 == s)).map Prod.snd

theorem assigned_append (front back : List (SeriesId × Double)) (s : SeriesId) :
    assigned (front ++ back) s = assigned front s ++ assigned back s := by
  rw [assigned, List.filter_append, List.map_append]
  rfl

theorem assigned_eq_nil {pairs : List (SeriesId × Double)} {s : SeriesId}
    (others : ∀ pair ∈ pairs, pair.1 ≠ s) : assigned pairs s = [] := by
  rw [assigned, List.filter_eq_nil_iff.mpr fun pair member => by simpa using others pair member]
  rfl

/-- The last value counts. -/
theorem value_assign {s : SeriesId} (inside : s < r.series.size)
    (pairs : List (SeriesId × Double)) :
    (r.assign pairs).value s = (assigned pairs s).getLastD (r.value s) := by
  induction pairs generalizing r with
  | nil => rfl
  | cons pair rest ih =>
    have later := @ih (r.set pair.1 pair.2) (by rwa [size_series_set])
    rw [assign, List.foldl_cons]
    refine later.trans ?_
    by_cases same : pair.1 = s
    · subst same
      have first : (pair :: rest).filter (·.1 == pair.1)
          = pair :: rest.filter (·.1 == pair.1) := List.filter_cons_of_pos (beq_self_eq_true _)
      rw [value_set_same _ inside, assigned, assigned, first, List.map_cons, List.getLastD_cons]
    · rw [value_set_of_ne _ same, assigned, assigned,
        List.filter_cons_of_neg (by simpa using same)]

end Registry

/-! ## Readings of registries that grow -/

/-- A callback assigns values to the series that it sets. -/
theorem SyncCallback.Sets.assigns {kind : SeriesId → Prop} {callback : SyncCallback}
    (sets : callback.Sets kind) (clock : Nat) : ∀ pair ∈ callback.assigns clock, kind pair.1 := by
  cases callback with
  | script counter actions => exact sets.elim
  | uptime series started =>
    intro pair member
    rw [List.mem_singleton.mp member]
    exact sets

theorem AsyncCallback.Sets.assigns {kind : SeriesId → Prop} {callback : AsyncCallback}
    (sets : callback.Sets kind) (files : Files.Tree) :
    ∀ pair ∈ callback.assigns files, kind pair.1 := by
  cases callback with
  | script counter call body => exact sets.elim
  | loadAverage path series => exact fun pair member => sets pair.1 (List.of_mem_zip member).1

/-- What the callbacks of an addition assign. -/
def Addition.assignments (files : Files.Tree) (clock : Nat) (more : Addition) :
    List (SeriesId × Double) :=
  more.syncCallbacks.flatMap (SyncCallback.assigns clock)
    ++ more.asyncCallbacks.flatMap (AsyncCallback.assigns files)

/-- What an addition shows on a registry after its callbacks. -/
def Addition.readings (r : Registry) (files : Files.Tree) (clock : Nat) (more : Addition) :
    List Reading :=
  more.metrics.map fun metric =>
    ⟨metric.name, metric.live.map fun s => ((r.extend more).tags s,
      (Registry.assigned (more.assignments files clock) s).getLastD ((r.extend more).value s))⟩

namespace Registry

variable (r : Registry)

/-- All series that metrics show and callbacks set are there. -/
structure Sound : Prop where
  live : ∀ metric ∈ r.metrics, ∀ s ∈ metric.live, s < r.series.size
  syncCallbacks : ∀ callback ∈ r.syncCallbacks, callback.Sets (· < r.series.size)
  asyncCallbacks : ∀ callback ∈ r.asyncCallbacks, callback.Sets (· < r.series.size)

theorem Sound.empty : Sound {} := ⟨by simp, by simp, by simp⟩

variable {r}

theorem Sound.produced (sound : r.Sound) : r.Produced where
  syncCallbacks callback member := (sound.syncCallbacks callback member).imp fun _ _ => trivial
  asyncCallbacks callback member := (sound.asyncCallbacks callback member).imp fun _ _ => trivial

/-- The series that an addition to a registry brings along. -/
def Brings (r : Registry) (more : Addition) (s : SeriesId) : Prop :=
  r.series.size ≤ s ∧ s < r.series.size + more.series.length

theorem brings (r : Registry) {more : Addition} {k : Nat} (inside : k < more.series.length) :
    r.Brings more (r.series.size + k) := ⟨Nat.le_add_right _ _, Nat.add_lt_add_left inside _⟩

/-- What comes to a registry has to do with series of its own only. -/
structure Fits (r : Registry) (more : Addition) : Prop where
  live : ∀ metric ∈ more.metrics, ∀ s ∈ metric.live, r.Brings more s
  syncCallbacks : ∀ callback ∈ more.syncCallbacks, callback.Sets (r.Brings more)
  asyncCallbacks : ∀ callback ∈ more.asyncCallbacks, callback.Sets (r.Brings more)

theorem Sound.extend (sound : r.Sound) {more : Addition} (fits : r.Fits more) :
    (r.extend more).Sound := by
  have old (s : SeriesId) (inside : s < r.series.size) : s < (r.extend more).series.size := by
    rw [size_extend]
    exact Nat.lt_add_right _ inside
  have new (s : SeriesId) (brought : r.Brings more s) : s < (r.extend more).series.size := by
    rw [size_extend]
    exact brought.2
  refine ⟨fun metric member s shown => ?_, fun callback member => ?_, fun callback member => ?_⟩
  · rcases Array.mem_append.mp member with before | added
    · exact old s (sound.live metric before s shown)
    · exact new s (fits.live metric (List.mem_toArray.mp added) s shown)
  · rcases List.mem_append.mp member with before | added
    · exact (sound.syncCallbacks callback before).imp old
    · exact (fits.syncCallbacks callback added).imp new
  · rcases List.mem_append.mp member with before | added
    · exact (sound.asyncCallbacks callback before).imp old
    · exact (fits.asyncCallbacks callback added).imp new

theorem assigned_sync {kind : SeriesId → Prop} {s : SeriesId} {callbacks : List SyncCallback}
    (sets : ∀ callback ∈ callbacks, callback.Sets kind) (other : ¬ kind s) (clock : Nat) :
    assigned (callbacks.flatMap (SyncCallback.assigns clock)) s = [] := by
  refine assigned_eq_nil fun pair member same => ?_
  obtain ⟨callback, inside, assigns⟩ := List.mem_flatMap.mp member
  exact other (same ▸ (sets callback inside).assigns clock pair assigns)

theorem assigned_async {kind : SeriesId → Prop} {s : SeriesId} {callbacks : List AsyncCallback}
    (sets : ∀ callback ∈ callbacks, callback.Sets kind) (other : ¬ kind s) (files : Files.Tree) :
    assigned (callbacks.flatMap (AsyncCallback.assigns files)) s = [] := by
  refine assigned_eq_nil fun pair member same => ?_
  obtain ⟨callback, inside, assigns⟩ := List.mem_flatMap.mp member
  exact other (same ▸ (sets callback inside).assigns files pair assigns)

section Extend

variable {more : Addition} (files : Files.Tree) (clock : Nat)

theorem assigned_extend (s : SeriesId) : assigned ((r.extend more).assignments files clock) s
    = assigned (r.syncCallbacks.flatMap (SyncCallback.assigns clock)) s
      ++ assigned (more.syncCallbacks.flatMap (SyncCallback.assigns clock)) s
      ++ (assigned (r.asyncCallbacks.flatMap (AsyncCallback.assigns files)) s
        ++ assigned (more.asyncCallbacks.flatMap (AsyncCallback.assigns files)) s) := by
  simp only [assignments, extend, List.flatMap_append, assigned_append]

theorem assigned_old (fits : r.Fits more) {s : SeriesId} (old : s < r.series.size) :
    assigned ((r.extend more).assignments files clock) s
      = assigned (r.assignments files clock) s := by
  have other : ¬ r.Brings more s := fun brought => Nat.not_le.mpr old brought.1
  rw [assigned_extend, assigned_sync fits.syncCallbacks other,
    assigned_async fits.asyncCallbacks other, List.append_nil, List.append_nil, assignments,
    assigned_append]

theorem assigned_new (sound : r.Sound) {s : SeriesId} (new : r.series.size ≤ s) :
    assigned ((r.extend more).assignments files clock) s
      = assigned (more.assignments files clock) s := by
  have other : ¬ s < r.series.size := Nat.not_lt.mpr new
  rw [assigned_extend, assigned_sync sound.syncCallbacks other,
    assigned_async sound.asyncCallbacks other, List.nil_append, List.nil_append,
    Addition.assignments, assigned_append]

/-- What is there already shows the same as before, and what comes shows what
its own callbacks assign. -/
theorem readings_refreshed_extend (sound : r.Sound) (fits : r.Fits more) :
    ((r.extend more).refreshed files clock).readings
      = (r.refreshed files clock).readings ++ more.readings r files clock := by
  have metrics : ((r.extend more).refreshed files clock).metrics.toList
      = (r.refreshed files clock).metrics.toList ++ more.metrics := by
    simp [refreshed, extend]
  rw [readings, readings, metrics, List.map_append]
  congr 1
  · refine List.map_congr_left fun metric member => ?_
    rw [reading, reading]
    congr 1
    refine List.map_congr_left fun s shown => ?_
    have old : s < r.series.size :=
      sound.live metric (by simpa [refreshed] using member) s shown
    have same := getElem?_extend_of_lt r more old
    have present : s < (r.extend more).series.size := by
      rw [size_extend]
      exact Nat.lt_add_right _ old
    rw [refreshed, refreshed, tags_assign, tags_assign, value_assign _ present, value_assign _ old,
      assigned_old files clock fits old, tags, tags, value, value, same]
  · refine List.map_congr_left fun metric member => ?_
    rw [reading]
    congr 1
    refine List.map_congr_left fun s shown => ?_
    have new := fits.live metric member s shown
    have present : s < (r.extend more).series.size := by
      rw [size_extend]
      exact new.2
    rw [refreshed, tags_assign, value_assign _ present, assigned_new files clock sound new.1]

end Extend

end Registry

end GaugeExporter
