import GaugeExporter.Callback.Action

/-!
# The registry

A registry holds metrics in registration order and every series that was ever
created. A metric lists its live series: in creation order or, with a sort
field, in the stable order of their sort keys, restored after each creation. A
removed series leaves the list of its metric and nothing else changes; setting
it goes on to work and no longer shows. Metrics and callbacks are never
removed.
-/

namespace GaugeExporter

open Binary (Double)

structure Series where
  owner : MetricId
  tags : List Tag
  -- The value of the owner's sort field among the tags.
  sortKey : Option String
  value : Double
  deriving Repr, Inhabited

structure Metric where
  name : String
  sortField : Option String
  live : List SeriesId
  deriving Repr, Inhabited

/-- Metrics, their series, and the callbacks in registration order. -/
structure Registry where
  metrics : Array Metric := #[]
  series : Array Series := #[]
  syncCallbacks : List SyncCallback := []
  asyncCallbacks : List AsyncCallback := []
  deriving Inhabited

/-! ## Sort keys -/

/-- The value of the first tag with the key of the sort field. -/
def sortKeyOf (sortField : Option String) (tags : List Tag) : Option String :=
  sortField.bind fun field => (tags.find? (·.key == field)).map (·.value)

/-- The order of sort keys: a missing key first, then by the characters' code
points, which is the order of the encoded bytes. -/
def sortKeyLE : Option String → Option String → Bool
  | none, _ => true
  | some _, none => false
  | some a, some b => decide (a ≤ b)

namespace Registry

/-! ## Metrics and series -/

def metricCount (r : Registry) : Nat := r.metrics.size

/-- Registers a metric without series. Names need not be unique. -/
def addMetric (r : Registry) (name : String) (sortField : Option String) : Registry × MetricId :=
  ({ r with metrics := r.metrics.push ⟨name, sortField, []⟩ }, r.metrics.size)

def sortKey (r : Registry) (s : SeriesId) : Option String := r.series[s]?.bind (·.sortKey)

def value (r : Registry) (s : SeriesId) : Double := (r.series[s]?.map (·.value)).getD .nan

def tags (r : Registry) (s : SeriesId) : List Tag := (r.series[s]?.map (·.tags)).getD []

/-- The live series of a metric in list order. -/
def live (r : Registry) (m : MetricId) : List SeriesId := (r.metrics[m]?.map (·.live)).getD []

/-- A list of series in the order of a metric. -/
def arranged (r : Registry) (sortField : Option String) (list : List SeriesId) : List SeriesId :=
  match sortField with
  | none => list
  | some _ => list.mergeSort fun a b => sortKeyLE (r.sortKey a) (r.sortKey b)

/-- Creates a series, whose value is NaN until it is set. Equal tags give
different series. -/
def create (r : Registry) (m : MetricId) (tags : List Tag) : Registry × SeriesId :=
  let id := r.series.size
  let sortField := r.metrics[m]?.bind (·.sortField)
  let grown := { r with series := r.series.push ⟨m, tags, sortKeyOf sortField tags, .nan⟩ }
  let metrics := r.metrics.modify m fun metric =>
    { metric with live := grown.arranged metric.sortField (metric.live ++ [id]) }
  ({ grown with metrics }, id)

/-- Stores a value in a series, live or removed. -/
def set (r : Registry) (s : SeriesId) (value : Double) : Registry :=
  { r with series := r.series.modify s fun series => { series with value } }

/-- Takes a series off its metric's list; nothing happens if it is not there. -/
def remove (r : Registry) (s : SeriesId) : Registry :=
  match r.series[s]? with
  | none => r
  | some series =>
    { r with
      metrics := r.metrics.modify series.owner fun metric =>
        { metric with live := metric.live.erase s } }

/-! ## Callbacks -/

def onSync (r : Registry) (callback : SyncCallback) : Registry :=
  { r with syncCallbacks := r.syncCallbacks ++ [callback] }

def onAsync (r : Registry) (callback : AsyncCallback) : Registry :=
  { r with asyncCallbacks := r.asyncCallbacks ++ [callback] }

/-! ## Descriptions in messages -/

def displayOption : Option String → String
  | none => "None"
  | some s => s!"Some({Text.quoted s})"

def displayMetric (m : Metric) : String :=
  "Metric \x7b name: " ++ Text.quoted m.name ++ ", sort_field: " ++ displayOption m.sortField
    ++ s!", series: {m.live.length} \x7d"

def displaySeries (r : Registry) (s : Series) : String :=
  let owner := (r.metrics[s.owner]?.map (·.name)).getD ""
  "Series \x7b metric: " ++ Text.quoted owner ++ ", tags: ["
    ++ ", ".intercalate (s.tags.map Tag.display) ++ "], value: "
    ++ String.ofList s.value.display ++ " \x7d"

/-! ## What the operations change -/

@[simp] theorem size_series_set (r : Registry) (s : SeriesId) (v : Double) :
    (r.set s v).series.size = r.series.size := by simp [set]

@[simp] theorem series_remove (r : Registry) (s : SeriesId) : (r.remove s).series = r.series := by
  unfold remove; split <;> rfl

@[simp] theorem size_metrics_remove (r : Registry) (s : SeriesId) :
    (r.remove s).metrics.size = r.metrics.size := by
  unfold remove; split <;> simp

@[simp] theorem size_metrics_create (r : Registry) (m : MetricId) (tags : List Tag) :
    (r.create m tags).1.metrics.size = r.metrics.size := by simp [create]

theorem value_set_same (r : Registry) {s : SeriesId} (h : s < r.series.size) (v : Double) :
    (r.set s v).value s = v := by
  simp [value, set, h, Array.getElem_modify]

theorem value_set_of_ne (r : Registry) {s t : SeriesId} (h : s ≠ t) (v : Double) :
    (r.set s v).value t = r.value t := by
  simp [value, set, Array.getElem?_modify, h]

end Registry

end GaugeExporter
