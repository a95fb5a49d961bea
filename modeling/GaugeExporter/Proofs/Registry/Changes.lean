import GaugeExporter.Proofs.Producer.Readings

/-!
# What single changes leave

A change of a registry leaves most of it as it was: the owners of series, their number,
the metrics that it does not reach, and the values of series that it does not set.
-/

namespace GaugeExporter

open Binary (Double)

namespace Registry

variable (r : Registry)

/-- The metric that a series was created in. -/
def owner? (s : SeriesId) : Option MetricId := r.series[s]?.map Series.owner

@[simp] theorem owner?_set (s t : SeriesId) (value : Double) :
    (r.set s value).owner? t = r.owner? t := by
  rw [owner?, owner?, set, Array.getElem?_modify]
  split
  · rw [Option.map_map]
    rfl
  · rfl

@[simp] theorem owner?_remove (s t : SeriesId) : (r.remove s).owner? t = r.owner? t := by
  rw [owner?, series_remove]
  rfl

@[simp] theorem owner?_assign (pairs : List (SeriesId × Double)) (s : SeriesId) :
    (r.assign pairs).owner? s = r.owner? s :=
  List.foldlRecOn pairs _ (motive := fun r' : Registry => r'.owner? s = r.owner? s) rfl
    fun r' same pair _ => (r'.owner?_set pair.1 s pair.2).trans same

theorem owner?_create (m : MetricId) (tags : List Tag) (s : SeriesId) :
    (r.create m tags).1.owner? s = if s = r.series.size then some m else r.owner? s := by
  rw [owner?, create, Array.getElem?_push]
  split <;> rfl

theorem getElem?_create (m : MetricId) (tags : List Tag) {s : SeriesId}
    (old : s < r.series.size) : (r.create m tags).1.series[s]? = r.series[s]? := by
  rw [create, Array.getElem?_push, if_neg (Nat.ne_of_lt old)]

theorem metrics_create {m other : MetricId} (differs : m ≠ other) (tags : List Tag) :
    (r.create m tags).1.metrics[other]? = r.metrics[other]? := by
  rw [create, Array.getElem?_modify, if_neg differs]

theorem metrics_remove {s : SeriesId} {other : MetricId}
    (differs : ∀ m, r.owner? s = some m → m ≠ other) :
    (r.remove s).metrics[other]? = r.metrics[other]? := by
  unfold remove
  split
  · rfl
  next series found =>
    have owner : r.owner? s = some series.owner := by rw [owner?, found]; rfl
    rw [Array.getElem?_modify, if_neg (differs _ owner)]

@[simp] theorem size_assign (pairs : List (SeriesId × Double)) :
    (r.assign pairs).series.size = r.series.size :=
  List.foldlRecOn pairs _ (motive := fun r' : Registry => r'.series.size = r.series.size) rfl
    fun r' same pair _ => (r'.size_series_set pair.1 pair.2).trans same

theorem assign_syncCallbacks (pairs : List (SeriesId × Double)) :
    (r.assign pairs).syncCallbacks = r.syncCallbacks :=
  List.foldlRecOn pairs _ (motive := fun r' : Registry => r'.syncCallbacks = r.syncCallbacks)
    rfl fun _ same _ _ => same

theorem syncCallbacks_remove (s : SeriesId) : (r.remove s).syncCallbacks = r.syncCallbacks := by
  unfold remove
  split <;> rfl

theorem asyncCallbacks_remove (s : SeriesId) : (r.remove s).asyncCallbacks = r.asyncCallbacks := by
  unfold remove
  split <;> rfl

theorem value_assign_of_notMem {pairs : List (SeriesId × Double)} {s : SeriesId}
    (inside : s < r.series.size) (others : ∀ pair ∈ pairs, pair.1 ≠ s) :
    (r.assign pairs).value s = r.value s := by
  rw [value_assign r inside, assigned_eq_nil others]
  rfl

/-- Different series that are given as many values have them afterwards. -/
theorem map_value_assign {series : List SeriesId} (distinct : series.Nodup)
    (inside : ∀ s ∈ series, s < r.series.size) {values : List Double}
    (fit : series.length = values.length) :
    series.map (r.assign (series.zip values)).value = values := by
  induction series generalizing r values with
  | nil => exact (List.eq_nil_of_length_eq_zero fit.symm).symm
  | cons s rest ih =>
    obtain _ | ⟨value, values⟩ := values
    · cases fit
    obtain ⟨fresh, distinct⟩ := List.nodup_cons.mp distinct
    obtain ⟨here, later⟩ := List.forall_mem_cons.mp inside
    have step : r.assign ((s :: rest).zip (value :: values))
        = (r.set s value).assign (rest.zip values) := rfl
    have kept : ∀ pair ∈ rest.zip values, pair.1 ≠ s := by
      rintro pair member rfl
      exact fresh (List.of_mem_zip member).1
    have first := (r.set s value).value_assign_of_notMem (by rwa [size_series_set]) kept
    rw [step, List.map_cons, first, value_set_same r here]
    congr 1
    exact ih _ distinct (by simpa using later) (Nat.succ.inj fit)

end Registry

end GaugeExporter
