import GaugeExporter.Proofs.Producer.Installed

/-!
# Registries that grow

What a producer registers comes behind what a registry has already, whatever
that is: `extend` puts it there all at once, and every kind of producer does
just this (`addGauge_eq`, `addProcess_eq`, `addLoadAverage_eq`).  The load
averages are the only ones with a sort field; their windows end up in the order
of their texts, which is not the order in which they are created.
-/

namespace GaugeExporter

open Binary (Double)

/-! ## Additions -/

/-- Metrics, series and callbacks that come behind those of a registry. -/
structure Addition where
  metrics : List Metric
  series : List Series
  syncCallbacks : List SyncCallback := []
  asyncCallbacks : List AsyncCallback := []

namespace Registry

/-- The registry with an addition behind all that it has. -/
def extend (r : Registry) (more : Addition) : Registry where
  metrics := r.metrics ++ more.metrics.toArray
  series := r.series ++ more.series.toArray
  syncCallbacks := r.syncCallbacks ++ more.syncCallbacks
  asyncCallbacks := r.asyncCallbacks ++ more.asyncCallbacks

variable (r : Registry)

theorem modify_push {α : Type} (items : Array α) (item : α) (change : α → α) :
    (items.push item).modify items.size change = items.push (change item) := by
  refine Array.ext (by simp) fun i inside _ => ?_
  rw [Array.getElem_modify, Array.getElem_push, Array.getElem_push]
  split
  next last => simp [← last]
  next other =>
    have before : i < items.size := by
      have := Array.size_modify ▸ inside
      rw [Array.size_push] at this
      omega
    simp [before]

theorem size_extend (more : Addition) :
    (r.extend more).series.size = r.series.size + more.series.length := by
  simp [extend]

theorem getElem?_extend (more : Addition) (k : Nat) :
    (r.extend more).series[r.series.size + k]? = more.series[k]? := by
  simp [extend, Array.getElem?_append]

theorem getElem?_extend_of_lt (more : Addition) {s : SeriesId} (old : s < r.series.size) :
    (r.extend more).series[s]? = r.series[s]? := by
  simp [extend, Array.getElem?_append, old]

theorem extend_extend (first second : Addition) :
    (r.extend first).extend second = r.extend
      ⟨first.metrics ++ second.metrics, first.series ++ second.series,
        first.syncCallbacks ++ second.syncCallbacks,
        first.asyncCallbacks ++ second.asyncCallbacks⟩ := by
  simp [extend]

theorem addMetric_eq (name : String) (sortField : Option String) :
    r.addMetric name sortField
      = (r.extend ⟨[⟨name, sortField, []⟩], [], [], []⟩, r.metrics.size) := by
  simp [addMetric, extend]

/-- A series that is created in the newest metric. -/
theorem create_newest (name : String) (sortField : Option String) (live : List SeriesId)
    (series : List Series) (tags : List Tag) :
    let made : Series := ⟨r.metrics.size, tags, sortKeyOf sortField tags, .nan⟩
    let grown := r.extend ⟨[⟨name, sortField, live⟩], series ++ [made], [], []⟩
    (r.extend ⟨[⟨name, sortField, live⟩], series, [], []⟩).create r.metrics.size tags
      = (r.extend ⟨[⟨name, sortField,
          grown.arranged sortField (live ++ [r.series.size + series.length])⟩], series ++ [made],
          [], []⟩, r.series.size + series.length) := by
  intro made grown
  simp [create, extend, grown, made, arranged, sortKey, modify_push]

end Registry

/-! ## What producers add -/

namespace Producer

/-- The series of a window. -/
def windowSeries (metric : MetricId) (window : String) : Series :=
  ⟨metric, [⟨LoadAverage.windowKey, window⟩], some window, .nan⟩

/-- A metric of load averages that has these series. -/
def windowMetric (live : List SeriesId) : Metric :=
  ⟨LoadAverage.metricName, some LoadAverage.windowKey, live⟩

end Producer

namespace Addition

open Producer (startTimeName uptimeName windowSeries windowMetric)

def gauge (r : Registry) (name : String) (tags : List Tag) (value : Double) : Addition where
  metrics := [⟨name, none, [r.series.size]⟩]
  series := [⟨r.metrics.size, tags, none, value⟩]

def process (now : Nat) (r : Registry) : Addition where
  metrics := [⟨startTimeName, none, [r.series.size]⟩, ⟨uptimeName, none, [r.series.size + 1]⟩]
  series := [⟨r.metrics.size, [], none, Producer.startTime now⟩,
    ⟨r.metrics.size + 1, [], none, .nan⟩]
  syncCallbacks := [.uptime (r.series.size + 1) now]

def loadAverage (path : String) (r : Registry) : Addition where
  metrics := [windowMetric [r.series.size + 2, r.series.size, r.series.size + 1]]
  series := ["1m", "5m", "15m"].map (windowSeries r.metrics.size)
  asyncCallbacks := [.loadAverage path [r.series.size, r.series.size + 1, r.series.size + 2]]

end Addition

namespace Producer

open Registry (addMetric_eq create_newest)

variable (r : Registry)

theorem addGauge_eq (name : String) (tags : List Tag) (value : Double) :
    addGauge r name tags value = (r.extend (.gauge r name tags value), r.series.size) := by
  have created := create_newest r name none [] [] tags
  simp only [List.nil_append, List.length_nil, Nat.add_zero] at created
  rw [addGauge, addMetric_eq]
  simp only [created]
  simp [Registry.set, Registry.extend, Registry.arranged, Registry.modify_push, sortKeyOf,
    Addition.gauge]

theorem addProcess_eq (now : Nat) : addProcess now r = r.extend (.process now r) := by
  rw [addProcess, addGauge_eq]
  simp only [addGauge_eq, Registry.extend_extend]
  simp [Registry.onSync, Registry.extend, Addition.gauge, Addition.process]

/-- The series of a further window takes its place among those of its metric. -/
theorem create_window {live live' : List SeriesId} {windows : List String} {window : String}
    (arranged : ∀ grown : Registry,
      (∀ k, grown.sortKey (r.series.size + k) = (windows ++ [window])[k]?) →
      grown.arranged (some LoadAverage.windowKey) (live ++ [r.series.size + windows.length])
        = live') :
    (r.extend ⟨[windowMetric live], windows.map (windowSeries r.metrics.size), [], []⟩).create
        r.metrics.size [⟨LoadAverage.windowKey, window⟩]
      = (r.extend ⟨[windowMetric live'],
          (windows ++ [window]).map (windowSeries r.metrics.size), [], []⟩,
        r.series.size + windows.length) := by
  have created := create_newest r LoadAverage.metricName (some LoadAverage.windowKey) live
    (windows.map (windowSeries r.metrics.size)) [⟨LoadAverage.windowKey, window⟩]
  have key : sortKeyOf (some LoadAverage.windowKey) [⟨LoadAverage.windowKey, window⟩]
      = some window := by
    simp [sortKeyOf]
  simp only [key, List.length_map] at created
  rw [arranged] at created
  · rw [List.map_append]
    exact created
  · intro k
    have series := Registry.getElem?_extend r ⟨[windowMetric live],
      (windows ++ [window]).map (windowSeries r.metrics.size), [], []⟩ k
    rw [List.map_append] at series
    rw [Registry.sortKey]
    refine (congrArg (·.bind Series.sortKey) series).trans ?_
    rw [← List.map_singleton, ← List.map_append, List.getElem?_map]
    cases (windows ++ [window])[k]? <;> rfl

/-- The windows stand in the order of their texts. -/
theorem arranged_windows {grown : Registry} {s : SeriesId} (one : grown.sortKey s = some "1m")
    (five : grown.sortKey (s + 1) = some "5m") :
    grown.arranged (some LoadAverage.windowKey) [s, s + 1] = [s, s + 1] ∧
      (grown.sortKey (s + 2) = some "15m" →
        grown.arranged (some LoadAverage.windowKey) [s, s + 1, s + 2] = [s + 2, s, s + 1]) := by
  constructor
  · simp [Registry.arranged, List.mergeSort, one, five, sortKeyLE]
  · intro fifteen
    simp [Registry.arranged, List.mergeSort, one, five, fifteen, sortKeyLE]

theorem addLoadAverage_eq (path : String) :
    addLoadAverage path r = r.extend (.loadAverage path r) := by
  have one := @create_window r [] [r.series.size] [] "1m" fun _ _ => List.mergeSort_singleton _
  have five := @create_window r [r.series.size] [r.series.size, r.series.size + 1] ["1m"] "5m"
    fun _ key => (arranged_windows (key 0) (key 1)).1
  have fifteen := @create_window r [r.series.size, r.series.size + 1] _ ["1m", "5m"] "15m"
    fun _ key => (arranged_windows (key 0) (key 1)).2 (key 2)
  simp only [List.map_nil, List.nil_append, List.cons_append, List.length_cons, List.length_nil,
    Nat.zero_add, Nat.add_zero, Nat.reduceAdd] at one five fifteen
  rw [addLoadAverage, addMetric_eq]
  simp only [LoadAverage.windows, List.foldl_cons, List.foldl_nil]
  rw [windowMetric] at one
  simp only [one, five, fifteen]
  simp [Registry.onAsync, Registry.extend, Addition.loadAverage]

end Producer

end GaugeExporter
