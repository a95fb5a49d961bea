import GaugeExporter.Proofs.Collection.Moments
import GaugeExporter.Proofs.Producer.Stations

/-!
# Estates

Nothing but the callback of a producer changes the estate of the producer
(`Estate.upkeep`): the values there are the ones that the producer gave them, or those of
one reading of its file, all of them together.  This is so through all that happens to a
station (`Estate.Kept.play`), and a document shows the metric at its place whatever
other metrics there are (`Estate.Kept.shows`).
-/

namespace GaugeExporter

open Binary (Double)
open Exposition (Family documentLines unlines)

/-! ## Estates are kept -/

/-- An estate is as it was in a registry, except for values that its file had once. -/
structure Estate.Kept (est : Estate) (seen : Files.Tree → Prop) (r : Registry) (st : Station) :
    Prop where
  confined : st.Confined est (· ≠ est.metric) (· ∉ est.series)
  inside : est.metric < st.registry.metrics.size
  allInside : ∀ s ∈ est.series, s < st.registry.series.size
  files : seen st.files
  metric : st.registry.metrics[est.metric]? = r.metrics[est.metric]?
  tags : ∀ s ∈ est.series, st.registry.tags s = r.tags s
  values : est.series.map st.registry.value = est.series.map r.value ∨
    ∃ files, seen files ∧ est.Reads files (est.series.map st.registry.value)

namespace Estate.Kept

variable {est : Estate} {seen : Files.Tree → Prop} {r : Registry} {st st' : Station}
  (kept : est.Kept seen r st)
include kept

/-- A change that leaves the estate alone. -/
theorem apart (confined : st'.Confined est (· ≠ est.metric) (· ∉ est.series))
    (files : seen st'.files) (metrics : st.registry.metrics.size ≤ st'.registry.metrics.size)
    (series : st.registry.series.size ≤ st'.registry.series.size)
    (metric : st'.registry.metrics[est.metric]? = st.registry.metrics[est.metric]?)
    (tags : ∀ s ∈ est.series, st'.registry.tags s = st.registry.tags s)
    (value : ∀ s ∈ est.series, st'.registry.value s = st.registry.value s) :
    est.Kept seen r st' where
  confined := confined
  inside := Nat.lt_of_lt_of_le kept.inside metrics
  allInside s mine := Nat.lt_of_lt_of_le (kept.allInside s mine) series
  files := files
  metric := metric.trans kept.metric
  tags s mine := (tags s mine).trans (kept.tags s mine)
  values := by
    rw [List.map_congr_left value]
    exact kept.values

theorem same (registry : st'.registry = st.registry) (files : seen st'.files)
    (metricNumbers : st'.metricNumbers = st.metricNumbers)
    (seriesNumbers : st'.seriesNumbers = st.seriesNumbers) : est.Kept seen r st' := by
  have confined := kept.confined.keep metricNumbers seriesNumbers (fun s => by rw [registry])
    (fun s started => by rw [registry]; exact id) fun path list => by rw [registry]; exact id
  refine kept.apart confined files ?_ ?_ ?_ ?_ ?_ <;> simp [registry]

theorem create {place : Place} {m : MetricId} (mine : st.place? place = some m) (tags : List Tag) :
    est.Kept seen r { st with
      registry := (st.registry.create m tags).1
      seriesNumbers := st.seriesNumbers.push st.registry.series.size } := by
  have other := kept.confined.place mine
  have fresh : st.registry.series.size ∉ est.series := fun inside =>
    Nat.lt_irrefl _ (kept.allInside _ inside)
  have old (s : SeriesId) (inside : s ∈ est.series) :=
    st.registry.getElem?_create m tags (kept.allInside s inside)
  refine kept.apart (kept.confined.create other fresh tags) kept.files ?_ ?_ ?_ ?_ ?_
  · exact Nat.le_of_eq (st.registry.size_metrics_create m tags).symm
  · exact Nat.le_of_lt (Nat.lt_of_lt_of_eq (Nat.lt_succ_self _) (Array.size_push _).symm)
  · exact st.registry.metrics_create other tags
  · intro s inside
    rw [Registry.tags, old s inside]
    rfl
  · intro s inside
    rw [Registry.value, old s inside]
    rfl

theorem setOther {s : SeriesId} (other : s ∉ est.series) (value : Double) :
    est.Kept seen r { st with registry := st.registry.set s value } := by
  refine kept.apart (kept.confined.set s value) kept.files (Nat.le_refl _) ?_ rfl ?_ ?_
  · exact Nat.le_of_eq (st.registry.size_series_set s value).symm
  · exact fun t _ => st.registry.tags_set s t value
  · intro t mine
    have differs : s ≠ t := fun same => other (same ▸ mine)
    exact st.registry.value_set_of_ne differs value

theorem remove {s : SeriesId} (other : s ∉ est.series) :
    est.Kept seen r { st with registry := st.registry.remove s } := by
  refine kept.apart (kept.confined.remove s) kept.files ?_ ?_ ?_ ?_ ?_
  · exact Nat.le_of_eq (st.registry.size_metrics_remove s).symm
  · rw [Registry.series_remove]
  · exact st.registry.metrics_remove fun m owner => kept.confined.owners s m other owner
  · intro t _
    rw [Registry.tags, Registry.series_remove]
    rfl
  · intro t _
    rw [Registry.value, Registry.series_remove]
    rfl

theorem refreshOther {list : List SeriesId} (others : ∀ s ∈ list, s ∉ est.series)
    (values : List Double) : est.Kept seen r (st.setAll list values) := by
  refine kept.apart (kept.confined.setAll list values) kept.files ?_ ?_ ?_ ?_ ?_
  · exact Nat.le_of_eq (congrArg Array.size (st.registry.metrics_assign _)).symm
  · exact Nat.le_of_eq (st.registry.size_assign _).symm
  · exact congrArg (·[est.metric]?) (st.registry.metrics_assign _)
  · exact fun t _ => st.registry.tags_assign _ t
  · intro t mine
    refine st.registry.value_assign_of_notMem (kept.allInside t mine) ?_
    rintro pair member rfl
    exact others _ (List.of_mem_zip member).1 mine

/-- All values come from one reading. -/
theorem refreshOwn {path text : String} {values : List Double} (source : est.source = some path)
    (read : st.files.readText path = .ok text)
    (understood : LoadAverage.parse? text = some values) :
    est.Kept seen r (st.setAll est.series values) where
  confined := kept.confined.setAll est.series values
  inside := by
    rw [Station.setAll]
    exact Nat.lt_of_lt_of_eq kept.inside
      (congrArg Array.size (st.registry.metrics_assign (est.series.zip values))).symm
  allInside s mine := Nat.lt_of_lt_of_eq (kept.allInside s mine) (st.registry.size_assign _).symm
  files := kept.files
  metric := (congrArg (·[est.metric]?) (st.registry.metrics_assign _)).trans kept.metric
  tags s mine := (st.registry.tags_assign _ s).trans (kept.tags s mine)
  values := by
    have fit : est.series.length = values.length := by
      rw [est.windows (source ▸ Option.some_ne_none path), LoadAverage.length_of_parse? understood]
    have assigned := st.registry.map_value_assign est.distinct kept.allInside fit
    refine .inr ⟨st.files, kept.files, path, text, source, read, ?_⟩
    exact understood.trans (congrArg some assigned.symm)

end Estate.Kept

/-- Nothing that callbacks and scripts do changes an estate, apart from its own callback. -/
def Estate.upkeep (est : Estate) (seen : Files.Tree → Prop) (r : Registry) : Upkeep where
  holds := est.Kept seen r
  admits := seen
  same kept registry files metricNumbers seriesNumbers :=
    kept.same registry (files ▸ kept.files) metricNumbers seriesNumbers
  world kept _ admitted := kept.same rfl admitted rfl rfl
  metric {st} kept name sortField := by
    have fresh : st.registry.metrics.size ≠ est.metric := Nat.ne_of_gt kept.inside
    refine kept.apart (kept.confined.metric fresh name sortField) kept.files ?_ (Nat.le_refl _) ?_
      (fun _ _ => rfl) fun _ _ => rfl
    · exact Nat.le_of_lt (Nat.lt_of_lt_of_eq (Nat.lt_succ_self _) (Array.size_push _).symm)
    · exact (Array.getElem?_push ..).trans (if_neg fresh.symm)
  create {_} kept {_ _} mine tags := kept.create mine tags
  set {_} kept {_ _} mine value := kept.setOther (kept.confined.seriesNumbers _ _ mine) value
  remove {_} kept {_ _} mine := kept.remove (kept.confined.seriesNumbers _ _ mine)
  onSync kept counter actions := kept.apart (kept.confined.onSync counter actions) kept.files
    (Nat.le_refl _) (Nat.le_refl _) rfl (fun _ _ => rfl) fun _ _ => rfl
  onAsync kept counter call body := kept.apart (kept.confined.onAsync counter call body) kept.files
    (Nat.le_refl _) (Nat.le_refl _) rfl (fun _ _ => rfl) fun _ _ => rfl
  uptime {_} kept {_ _} registered value :=
    kept.setOther (kept.confined.uptimes _ _ registered) value
  refresh {_} kept {_ _ _ _} registered read understood := by
    obtain ⟨source, rfl⟩ | others := kept.confined.readers _ _ registered
    · exact kept.refreshOwn source read understood
    · exact kept.refreshOther others _

theorem Estate.installed (est : Estate) (seen : Files.Tree → Prop) (r : Registry) :
    (est.upkeep seen r).Installed := by
  intro st kept now settings
  obtain ⟨more, added, joins⟩ := (Producer.installs now st.registry settings).joins
  have old (s : SeriesId) (mine : s ∈ est.series) :=
    st.registry.getElem?_extend_of_lt more (kept.allInside s mine)
  have confined := kept.confined.extend joins
    (fun m new _ same => Nat.not_lt.mpr new (same ▸ kept.inside))
    fun s brought mine => Nat.not_lt.mpr brought.1 (kept.allInside s mine)
  rw [Station.pass, added]
  refine kept.apart confined kept.files ?_ ?_ ?_ ?_ ?_
  · rw [Registry.size_metrics_extend]
    exact Nat.le_add_right _ _
  · rw [Registry.size_extend]
    exact Nat.le_add_right _ _
  · exact Array.getElem?_append_left kept.inside
  · intro s mine
    rw [Registry.tags, old s mine]
    rfl
  · intro s mine
    rw [Registry.value, old s mine]
    rfl

/-! ## Documents -/

/-- What a document shows of a metric, nothing if no value is finite. -/
def Reading.shown (timestamp : Int) (reading : Reading) : Option Family :=
  if reading.present then some (reading.family timestamp) else none

/-- The metric at a place of a registry shows this in a document, and all else that the
document shows has the name of the metric at its place. -/
def Registry.ShowsAt (r : Registry) (place : MetricId) (shown : Option Family) (document : Bytes) :
    Prop :=
  ∃ families : List (Option Family), families[place]? = some shown ∧
    (∀ (i : Nat) (family : Family), families[i]? = some (some family) →
      r.metrics[i]?.map Metric.name = some family.name) ∧
    document = Text.utf8 (unlines (documentLines families.reduceOption))

theorem Registry.document_showsAt {r : Registry} {m : MetricId} {metric : Metric}
    (registered : r.metrics[m]? = some metric) (timestamp : Int) :
    r.ShowsAt m (r.family? timestamp metric) (r.document timestamp) := by
  refine ⟨r.metrics.toList.map (r.family? timestamp), ?_, fun i family found => ?_, ?_⟩
  · rw [List.getElem?_map, Array.getElem?_toList, registered]
    rfl
  · rw [List.getElem?_map, Array.getElem?_toList] at found
    obtain ⟨other, there, shown⟩ := Option.map_eq_some_iff.mp found
    rw [family?_eq] at shown
    split at shown
    · cases shown
      rw [there]
      rfl
    · cases shown
  · have shown : r.emitted timestamp = (r.metrics.toList.map (r.family? timestamp)).reduceOption :=
      (@List.filterMap_map _ _ _ (r.family? timestamp) id r.metrics.toList).symm
    rw [document_eq, shown]

namespace Estate

variable {est : Estate} {seen : Files.Tree → Prop} {st : Station}

section Start

variable {more : Addition} (proper : st.Proper) (metric : est.metric = st.registry.metrics.size)
  (series : ∀ s, s ∈ est.series ↔ st.registry.Brings more s) (sync : more.syncCallbacks = [])
  (async : ∀ path list, .loadAverage path list ∈ more.asyncCallbacks → est.Owns path list)
include proper metric series sync async

theorem confined_start : Station.Confined est (· ≠ est.metric) (· ∉ est.series)
    { st with registry := st.registry.extend more } := by
  have old (s : SeriesId) (inside : s < st.registry.series.size) : s ∉ est.series := fun mine =>
    Nat.not_lt.mpr ((series s).mp mine).1 inside
  have old' (m : MetricId) (inside : m < st.registry.metrics.size) : m ≠ est.metric :=
    metric ▸ Nat.ne_of_lt inside
  refine ⟨fun _ => id, fun n m found => ?_, fun n s found => ?_, fun s m other found => ?_,
    fun s started member => ?_, fun path list member => ?_⟩
  · exact old' m (proper.metricNumbers n m found)
  · exact old s (proper.seriesNumbers n s found)
  · obtain ⟨entry, there, -⟩ := Option.map_eq_some_iff.mp found
    have inside := (Array.getElem?_eq_some_iff.mp there).1
    rw [Registry.size_extend] at inside
    have before : s < st.registry.series.size := by
      by_contra after
      exact other ((series s).mpr ⟨Nat.not_lt.mp after, inside⟩)
    rw [Registry.owner?, Registry.getElem?_extend_of_lt _ _ before] at found
    exact old' m (proper.owners s m List.not_mem_nil found)
  · rw [Registry.extend, sync, List.append_nil] at member
    exact old s (proper.uptimes s started member)
  · rcases List.mem_append.mp member with before | added
    · obtain ⟨nobody, -⟩ | inside := proper.readers path list before
      · cases nobody
      · exact .inr fun s mine => old s (inside s mine)
    · exact .inl (async path list added)

/-- What is added to a proper station is an estate if it has one metric at least and no
callback of others. -/
theorem Kept.start (some : more.metrics ≠ []) (files : seen st.files) :
    est.Kept seen (st.registry.extend more)
      { st with registry := st.registry.extend more } where
  confined := confined_start proper metric series sync async
  inside := by
    show est.metric < (st.registry.extend more).metrics.size
    rw [Registry.size_metrics_extend, metric]
    exact Nat.lt_add_of_pos_right (List.length_pos_of_ne_nil some)
  allInside s mine := by
    show s < (st.registry.extend more).series.size
    rw [Registry.size_extend]
    exact ((series s).mp mine).2
  files := files
  metric := rfl
  tags _ _ := rfl
  values := .inl rfl

end Start

section Run

variable {start : Station} {r : Registry} {episodes : List Episode} {requests : List Request}
  {moves : List Move} (kept : est.Kept (start.Sees (episodes ++ [.play requests moves])) r st)
include kept

/-- An estate is kept through all that happens to a station. -/
theorem Kept.play {front : List Move} (part : front <+: moves) :
    est.Kept (start.Sees (episodes ++ [.play requests moves])) r
      ((System.ofRequests (st.passAll episodes) requests).play front).station := by
  have leaves (episode : Episode) (member : episode ∈ episodes) :=
    Episode.leaves_sees (List.mem_append_left [.play requests moves] member) start
  have held := Upkeep.passAll_keeps _ (est.installed _ r) kept leaves
  have last : .play requests moves ∈ episodes ++ [.play requests moves] :=
    List.mem_append_right _ (List.mem_singleton.mpr rfl)
  have sees := Episode.leaves_sees last start
  exact (Upkeep.play_upholds _ held requests fun clock files left =>
    sees clock files (part.subset left)).station

/-- The document of a collection that has succeeded is that of a registry in which the
estate was kept. -/
theorem Kept.document {task : Task}
    (member : task ∈ ((System.ofRequests (st.passAll episodes) requests).play moves).tasks)
    (succeeded : task.phase = .ended (.ok ())) :
    ∃ front, front <+: moves ∧
      let moment := ((System.ofRequests (st.passAll episodes) requests).play front).station
      est.Kept (start.Sees (episodes ++ [.play requests moves])) r moment ∧
        task.out = task.request.buffer ++ moment.registry.document task.request.timestamp := by
  obtain ⟨front, part, out⟩ := System.document_of_succeeded _ requests member succeeded
  exact ⟨front, part, kept.play part, out⟩

end Run

/-- The metric of an estate shows the tags that its series had at first and the values
that they have now. -/
theorem Kept.shows {r : Registry} {metric : Metric} (kept : est.Kept seen r st)
    (registered : r.metrics[est.metric]? = some metric)
    (live : ∀ s ∈ metric.live, s ∈ est.series) (timestamp : Int) :
    st.registry.ShowsAt est.metric
      (Reading.shown timestamp
        ⟨metric.name, metric.live.map fun s => (r.tags s, st.registry.value s)⟩)
      (st.registry.document timestamp) := by
  have shown := Registry.document_showsAt (kept.metric.trans registered) timestamp
  have reading : st.registry.reading metric
      = ⟨metric.name, metric.live.map fun s => (r.tags s, st.registry.value s)⟩ := by
    rw [Registry.reading]
    congr 1
    exact List.map_congr_left fun s mine => by rw [kept.tags s (live s mine)]
  rw [st.registry.family?_eq, reading] at shown
  exact shown

end Estate

end GaugeExporter
