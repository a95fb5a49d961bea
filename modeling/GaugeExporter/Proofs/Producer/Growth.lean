import GaugeExporter.Proofs.Producer.Installed

/-!
# What producers add to a registry

An installation that fails changes nothing (`Installs.failed`), and one that
succeeds adds the metrics and callbacks of its kind behind those that are there
(`Installs.grown`).  So producers that are installed in order leave the registry
that those before the first failure leave, or all that they announce: by
induction over the list, on a registry that may hold anything
(`installAll_up_to_first_failure`).
-/

namespace GaugeExporter

/-- What a metric is called and which tag sorts it. -/
def Metric.heading (metric : Metric) : String × Option String := (metric.name, metric.sortField)

namespace Registry

/-! ## Additions -/

/-- Metrics with these headings and these callbacks were added behind those of a
registry, and what it held before is as it was. -/
structure Gained (r r' : Registry) (headings : List (String × Option String))
    (sync : List SyncCallback) (async : List AsyncCallback) : Prop where
  metrics : r.metrics.toList <+: r'.metrics.toList
  headings : r'.metrics.toList.map Metric.heading = r.metrics.toList.map Metric.heading ++ headings
  series : r.series.toList <+: r'.series.toList
  syncCallbacks : r'.syncCallbacks = r.syncCallbacks ++ sync
  asyncCallbacks : r'.asyncCallbacks = r.asyncCallbacks ++ async

theorem prefix_modify {α : Type} {front items : List α} (grown : front <+: items) {i : Nat}
    (beyond : front.length ≤ i) (change : α → α) : front <+: items.modify i change := by
  rw [List.prefix_iff_getElem?] at grown ⊢
  intro j inside
  have apart : i ≠ j := by omega
  rw [List.getElem?_modify, grown j inside]
  simp [apart]

theorem map_modify {α β : Type} {f : α → β} {change : α → α} (same : ∀ a, f (change a) = f a)
    (items : List α) (i : Nat) : (items.modify i change).map f = items.map f := by
  refine List.ext_getElem? fun j => ?_
  rw [List.getElem?_map, List.getElem?_map, List.getElem?_modify]
  cases items[j]? with
  | none => rfl
  | some a =>
    by_cases at_ : i = j <;> simp [at_, same]

namespace Gained

variable {r r' r'' : Registry} {headings more : List (String × Option String)}
  {sync sync' : List SyncCallback} {async async' : List AsyncCallback}

theorem refl (r : Registry) : Gained r r [] [] [] :=
  ⟨List.prefix_refl _, (List.append_nil _).symm, List.prefix_refl _, (List.append_nil _).symm,
    (List.append_nil _).symm⟩

theorem trans (left : Gained r r' headings sync async) (right : Gained r' r'' more sync' async') :
    Gained r r'' (headings ++ more) (sync ++ sync') (async ++ async') where
  metrics := left.metrics.trans right.metrics
  headings := by rw [right.headings, left.headings, List.append_assoc]
  series := left.series.trans right.series
  syncCallbacks := by rw [right.syncCallbacks, left.syncCallbacks, List.append_assoc]
  asyncCallbacks := by rw [right.asyncCallbacks, left.asyncCallbacks, List.append_assoc]

variable (gained : Gained r r' headings sync async)
include gained

theorem metricCount : r'.metricCount = r.metricCount + headings.length := by
  have lengths := congrArg List.length gained.headings
  simpa [Registry.metricCount] using lengths

theorem le_series : r.series.size ≤ r'.series.size := by
  simpa using gained.series.length_le

theorem addMetric (name : String) (sortField : Option String) :
    Gained r (r'.addMetric name sortField).1 (headings ++ [(name, sortField)]) sync async where
  metrics := by
    simp only [Registry.addMetric, Array.toList_push]
    exact gained.metrics.trans (List.prefix_append _ _)
  headings := by
    simp only [Registry.addMetric, Array.toList_push, List.map_append, gained.headings,
      List.append_assoc]
    rfl
  series := gained.series
  syncCallbacks := gained.syncCallbacks
  asyncCallbacks := gained.asyncCallbacks

theorem create {m : MetricId} (added : r.metrics.size ≤ m) (tags : List Tag) :
    Gained r (r'.create m tags).1 headings sync async where
  metrics := by
    simp only [Registry.create, Array.toList_modify]
    exact prefix_modify gained.metrics (by simpa using added) _
  headings := by
    simp only [Registry.create, Array.toList_modify]
    refine (map_modify (f := Metric.heading) ?_ _ _).trans gained.headings
    exact fun _ => rfl
  series := by
    simp only [Registry.create, Array.toList_push]
    exact gained.series.trans (List.prefix_append _ _)
  syncCallbacks := gained.syncCallbacks
  asyncCallbacks := gained.asyncCallbacks

theorem set {s : SeriesId} (added : r.series.size ≤ s) (value : Binary.Double) :
    Gained r (r'.set s value) headings sync async where
  metrics := gained.metrics
  headings := gained.headings
  series := by
    simp only [Registry.set, Array.toList_modify]
    exact prefix_modify gained.series (by simpa using added) _
  syncCallbacks := gained.syncCallbacks
  asyncCallbacks := gained.asyncCallbacks

theorem onSync (callback : SyncCallback) :
    Gained r (r'.onSync callback) headings (sync ++ [callback]) async where
  metrics := gained.metrics
  headings := gained.headings
  series := gained.series
  syncCallbacks := by rw [Registry.onSync, gained.syncCallbacks, List.append_assoc]
  asyncCallbacks := gained.asyncCallbacks

theorem onAsync (callback : AsyncCallback) :
    Gained r (r'.onAsync callback) headings sync (async ++ [callback]) where
  metrics := gained.metrics
  headings := gained.headings
  series := gained.series
  syncCallbacks := gained.syncCallbacks
  asyncCallbacks := by rw [Registry.onAsync, gained.asyncCallbacks, List.append_assoc]

end Gained

end Registry

namespace Producer

open Registry (Gained)

variable {r r' : Registry}

/-! ## What each kind adds -/

theorem addGauge_gained {headings : List (String × Option String)} {sync : List SyncCallback}
    {async : List AsyncCallback} (gained : Gained r r' headings sync async) (name : String)
    (tags : List Tag) (value : Binary.Double) :
    Gained r (addGauge r' name tags value).1 (headings ++ [(name, none)]) sync async := by
  have metric := gained.addMetric name none
  have below : r.metrics.size ≤ r'.metrics.size := by simpa using gained.metrics.length_le
  exact (metric.create below tags).set metric.le_series value

/-- The callback sets a series that was added together with it. -/
theorem addProcess_gained (r : Registry) (now : Nat) :
    ∃ callback : SyncCallback, callback.Sets (r.series.size ≤ ·) ∧
      Gained r (addProcess now r) [(startTimeName, none), (uptimeName, none)] [callback] [] := by
  have started := addGauge_gained (.refl r) startTimeName [] (startTime now)
  refine ⟨_, ?_, (addGauge_gained started uptimeName [] .nan).onSync _⟩
  exact started.le_series

theorem createWindows_gained {headings : List (String × Option String)} {m : MetricId}
    (added : r.metrics.size ≤ m) (windows : List String) (made : Registry × List SeriesId)
    (fresh : ∀ s ∈ made.2, r.series.size ≤ s) (gained : Gained r made.1 headings [] []) :
    let done := windows.foldl (fun made window =>
      let created := made.1.create m [⟨LoadAverage.windowKey, window⟩]
      (created.1, made.2 ++ [created.2])) made
    (∀ s ∈ done.2, r.series.size ≤ s) ∧ Gained r done.1 headings [] [] := by
  induction windows generalizing made with
  | nil => exact ⟨fresh, gained⟩
  | cons window rest ih =>
    refine ih _ (fun s member => ?_) (gained.create added _)
    cases List.mem_append.mp member with
    | inl earlier => exact fresh s earlier
    | inr last => exact List.mem_singleton.mp last ▸ gained.le_series

/-- The callback sets series that were added together with it. -/
theorem addLoadAverage_gained (r : Registry) (path : String) :
    ∃ callback : AsyncCallback, callback.Sets (r.series.size ≤ ·) ∧
      Gained r (addLoadAverage path r) [(LoadAverage.metricName, some LoadAverage.windowKey)] []
        [callback] := by
  have metric := (Gained.refl r).addMetric LoadAverage.metricName (some LoadAverage.windowKey)
  obtain ⟨fresh, gained⟩ :=
    createWindows_gained (Nat.le_refl _) LoadAverage.windows (_, []) nofun metric
  refine ⟨_, ?_, gained.onAsync _⟩
  exact fresh

/-- The metrics that a producer announces. -/
def headings (settings : ProducerSettings) : List (String × Option String) :=
  match Kind.find? settings.kind with
  | some .static =>
    (StaticOptions.decode settings.options).toOption.toList.map fun options =>
      (options.metric, none)
  | some .process => [(startTimeName, none), (uptimeName, none)]
  | some .loadAverage => [(LoadAverage.metricName, some LoadAverage.windowKey)]
  | none => []

/-- How many of the producers are of a kind. -/
def Kind.count (kind : Kind) (producers : List ProducerSettings) : Nat :=
  producers.countP fun settings => settings.kind == kind.name

/-- A registry after the installation of producers: it has gained what they
announce, in their order. -/
structure Grown (r : Registry) (producers : List ProducerSettings) (r' : Registry) : Prop where
  gained : ∃ sync async, Gained r r' (producers.flatMap headings) sync async
  metricCount : r'.metricCount = r.metricCount
    + (Kind.static.count producers + 2 * Kind.process.count producers
      + Kind.loadAverage.count producers)
  syncCallbacks : r'.syncCallbacks.length = r.syncCallbacks.length + Kind.process.count producers
  asyncCallbacks : r'.asyncCallbacks.length
    = r.asyncCallbacks.length + Kind.loadAverage.count producers

theorem Grown.nil (r : Registry) : Grown r [] r := ⟨⟨[], [], .refl r⟩, rfl, rfl, rfl⟩

theorem Grown.cons {mid : Registry} {settings : ProducerSettings} {rest : List ProducerSettings}
    (first : Grown r [settings] mid) (later : Grown mid rest r') :
    Grown r (settings :: rest) r' := by
  obtain ⟨⟨sync, async, gained⟩, metrics, syncs, asyncs⟩ := first
  obtain ⟨⟨sync', async', gained'⟩, metrics', syncs', asyncs'⟩ := later
  have counts (kind : Kind) :
      kind.count (settings :: rest) = kind.count [settings] + kind.count rest := by
    rw [Kind.count, Kind.count, Kind.count, ← List.countP_append, List.singleton_append]
  refine ⟨⟨sync ++ sync', async ++ async', ?_⟩, ?_, ?_, ?_⟩
  · simpa [List.flatMap_cons] using gained.trans gained'
  · rw [metrics', metrics, counts, counts, counts]
    omega
  · rw [syncs', syncs, counts, Nat.add_assoc]
  · rw [asyncs', asyncs, counts, Nat.add_assoc]

/-! ## One installation -/

theorem Kind.count_single {settings : ProducerSettings} {kind : Kind}
    (named : settings.kind = kind.name) (other : Kind) :
    other.count [settings] = if kind = other then 1 else 0 := by
  have names : kind.name = other.name ↔ kind = other := by
    cases kind <;> cases other <;> decide
  simp [Kind.count, List.countP_cons, named, names]

theorem Grown.single {settings : ProducerSettings} {kind : Kind} {sync : List SyncCallback}
    {async : List AsyncCallback} (named : settings.kind = kind.name)
    (gained : Gained r r' (headings settings) sync async)
    (metrics : (headings settings).length = if kind = .process then 2 else 1)
    (syncs : sync.length = if kind = .process then 1 else 0)
    (asyncs : async.length = if kind = .loadAverage then 1 else 0) : Grown r [settings] r' where
  gained := ⟨sync, async, by simpa using gained⟩
  metricCount := by
    rw [gained.metricCount, metrics, Kind.count_single named, Kind.count_single named,
      Kind.count_single named]
    cases kind <;> rfl
  syncCallbacks := by
    rw [gained.syncCallbacks, List.length_append, syncs, Kind.count_single named]
  asyncCallbacks := by
    rw [gained.asyncCallbacks, List.length_append, asyncs, Kind.count_single named]

theorem Installs.grown {now : Nat} {settings : ProducerSettings}
    (installs : Installs now r settings r' (.ok ())) : Grown r [settings] r' := by
  cases installs with
  | @static options kind decodes metric tags =>
    have announced : headings settings = [(options.metric, none)] := by
      rw [headings, kind, decodes]
      rfl
    have gained := addGauge_gained (.refl r) options.metric options.tagList options.value
    exact .single kind (announced ▸ gained) (by rw [announced]; rfl) rfl rfl
  | process kind =>
    have announced : headings settings = [(startTimeName, none), (uptimeName, none)] := by
      rw [headings, kind]
      rfl
    obtain ⟨callback, -, gained⟩ := addProcess_gained r now
    exact .single kind (announced ▸ gained) (by rw [announced]; rfl) rfl rfl
  | @loadAverage path kind decodes =>
    have announced :
        headings settings = [(LoadAverage.metricName, some LoadAverage.windowKey)] := by
      rw [headings, kind]
      rfl
    obtain ⟨callback, -, gained⟩ := addLoadAverage_gained r path
    exact .single kind (announced ▸ gained) (by rw [announced]; rfl) rfl rfl

/-! ## One installation after another -/

/-- The registry after these installations, whatever comes of each of them. -/
def after (now : Nat) (r : Registry) (producers : List ProducerSettings) : Registry :=
  producers.foldl (fun r settings => ((install now settings).on r).1) r

/-- What comes of the installation at a place of the list, after those before it. -/
def resultAt (now : Nat) (r : Registry) (producers : List ProducerSettings) (i : Nat) :
    Option (Except InstallError Unit) :=
  producers[i]?.map fun settings => ((install now settings).on (after now r (producers.take i))).2

/-- The installation at this place is the first that fails. -/
def FirstFailure (now : Nat) (r : Registry) (producers : List ProducerSettings) (i : Nat)
    (e : InstallError) : Prop :=
  resultAt now r producers i = some (.error e) ∧
    ∀ j < i, ∀ e, resultAt now r producers j ≠ some (.error e)

variable {now : Nat} {settings : ProducerSettings} {producers : List ProducerSettings}

theorem install_failed {e : InstallError} (failed : ((install now settings).on r).2 = .error e) :
    (install now settings).on r = (r, .error e) := by
  have installs := installs now r settings
  generalize (install now settings).on r = done at installs failed ⊢
  obtain ⟨r', result⟩ := done
  cases failed
  cases installs
  rfl

theorem resultAt_cons (now : Nat) (r : Registry) (settings : ProducerSettings)
    (rest : List ProducerSettings) (i : Nat) :
    resultAt now r (settings :: rest) (i + 1)
      = resultAt now ((install now settings).on r).1 rest i := rfl

theorem resultAt_take {i j : Nat} (before : j < i) :
    resultAt now r (producers.take i) j = resultAt now r producers j := by
  rw [resultAt, resultAt, List.getElem?_take_of_lt before, List.take_take,
    Nat.min_eq_left (Nat.le_of_lt before)]

/-- Installations of which none fails. -/
theorem installEach_ok (fine : ∀ i e, resultAt now r producers i ≠ some (.error e)) :
    Installation.on r (producers.forM (install now)) = (after now r producers, .ok ()) ∧
      Grown r producers (after now r producers) := by
  induction producers generalizing r with
  | nil => exact ⟨rfl, .nil r⟩
  | cons settings rest ih =>
    have first := installs now r settings
    have here := fine 0
    have later (i : Nat) (e : InstallError) := fine (i + 1) e
    simp only [resultAt_cons] at later
    obtain ⟨each, grown⟩ := ih later
    cases result : ((install now settings).on r).2 with
    | error e => exact absurd (congrArg some result) (here e)
    | ok _ =>
      rw [result] at first
      have installed : (install now settings).on r = (((install now settings).on r).1, .ok ()) :=
        Prod.ext rfl result
      refine ⟨?_, first.grown.cons grown⟩
      rw [List.forM, Installation.on_bind, installed]
      exact each

theorem installAll_ok (fine : ∀ i e, resultAt now r producers i ≠ some (.error e)) :
    installAll now r producers = (after now r producers, .ok producers.length) := by
  rw [installAll, Installation.on_bind, (installEach_ok fine).1]
  rfl

variable {i : Nat} {e : InstallError}

theorem FirstFailure.front (first : FirstFailure now r producers i e) (j : Nat)
    (e : InstallError) : resultAt now r (producers.take i) j ≠ some (.error e) := by
  intro failed
  obtain ⟨settings, found, _⟩ := Option.map_eq_some_iff.mp failed
  have inside := (List.getElem?_eq_some_iff.mp found).1
  have early : j < i := by
    rw [List.length_take] at inside
    omega
  exact first.2 j early e (resultAt_take early ▸ failed)

theorem FirstFailure.inside (first : FirstFailure now r producers i e) : i < producers.length := by
  obtain ⟨settings, found, _⟩ := Option.map_eq_some_iff.mp first.1
  exact (List.getElem?_eq_some_iff.mp found).1

/-- What comes after the first failure does not matter. -/
theorem installAll_failed (first : FirstFailure now r producers i e)
    (others : List ProducerSettings) :
    installAll now r (producers.take (i + 1) ++ others)
      = (after now r (producers.take i), .error e) := by
  obtain ⟨settings, found, result⟩ := Option.map_eq_some_iff.mp first.1
  have here : producers.take (i + 1) = producers.take i ++ [settings] := by
    rw [List.take_add_one, found]
    rfl
  have front := (installEach_ok first.front).1
  rw [List.forM_eq_forM] at front
  rw [installAll, here, List.append_assoc, List.singleton_append, List.forM_eq_forM,
    List.forM_append, Installation.on_bind, Installation.on_bind, front]
  simp only [List.forM_cons]
  rw [Installation.on_bind, install_failed result]

/-- A producer that cannot be installed changes nothing; the list is installed
up to the first such producer; and if there is none, each of them has added what
belongs to it. -/
theorem installAll_up_to_first_failure (now : Nat) (r : Registry)
    (producers : List ProducerSettings) :
    (∀ settings r e, ((install now settings).on r).2 = .error e →
        ((install now settings).on r).1 = r) ∧
      (∀ i e, FirstFailure now r producers i e →
        installAll now r (producers.take i) = (after now r (producers.take i), .ok i) ∧
        installAll now r producers = ((installAll now r (producers.take i)).1, .error e) ∧
        ∀ others, installAll now r (producers.take (i + 1) ++ others)
          = ((installAll now r (producers.take i)).1, .error e)) ∧
      ((∀ i e, resultAt now r producers i ≠ some (.error e)) →
        installAll now r producers = (after now r producers, .ok producers.length) ∧
        Grown r producers (after now r producers)) := by
  refine ⟨fun settings r e failed => by rw [install_failed failed], fun i e first => ?_,
    fun fine => ⟨installAll_ok fine, (installEach_ok fine).2⟩⟩
  have before : installAll now r (producers.take i) = (after now r (producers.take i), .ok i) := by
    rw [installAll_ok first.front, List.length_take, Nat.min_eq_left (Nat.le_of_lt first.inside)]
  rw [before]
  refine ⟨rfl, ?_, installAll_failed first⟩
  have whole := installAll_failed first (producers.drop (i + 1))
  rwa [List.take_append_drop] at whole

/-- The second producer names no metric that there can be, so the first stays
and the third is not reached. -/
theorem badName_stops_there :
    let bad : ProducerSettings := ⟨"static", [("metric", .string "9up"), ("value", .integer 1)]⟩
    let producers : List ProducerSettings := [⟨"process", []⟩, bad, ⟨"loadavg", []⟩]
    let r := (addGauge {} "up" [] (.ofInt 1)).1
    FirstFailure 0 r producers 1 (.invalidName .metric "9up") ∧
      installAll 0 r producers
        = ((installAll 0 r [⟨"process", []⟩]).1, .error (.invalidName .metric "9up")) := by
  intro bad producers r
  have first : FirstFailure 0 r producers 1 (.invalidName .metric "9up") := by
    refine ⟨rfl, fun j early e failed => ?_⟩
    obtain rfl : j = 0 := by omega
    cases failed
  exact ⟨first, ((installAll_up_to_first_failure 0 r producers).2.1 1 _ first).2.1⟩

end Producer

end GaugeExporter
