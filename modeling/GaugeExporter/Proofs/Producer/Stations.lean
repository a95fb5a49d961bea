import GaugeExporter.Proofs.Collection.Upkeep
import GaugeExporter.Proofs.Producer.Contributions
import GaugeExporter.Proofs.Registry.Changes

/-!
# What others may use

The metric and the series that a producer has made are its estate.  What scripts have
numbers for and what other callbacks set lies in metrics and series outside of it
(`Station.Confined`), and no change makes it leave them.  So does what producers that are
installed later bring along.  A station is proper if its numbers, owners and callbacks
refer to what there is at all, and it stays so through all its episodes
(`Station.Proper.pass`).
-/

namespace GaugeExporter

open Binary (Double)

/-! ## Additions that stand for themselves -/

/-- What an addition to a registry brings along has to do with itself only. -/
structure Registry.Joins (r : Registry) (more : Addition) : Prop extends r.Fits more where
  owners : ∀ series ∈ more.series,
    r.metrics.size ≤ series.owner ∧ series.owner < r.metrics.size + more.metrics.length

theorem Registry.size_metrics_extend (r : Registry) (more : Addition) :
    (r.extend more).metrics.size = r.metrics.size + more.metrics.length := by
  simp [Registry.extend]

theorem Producer.Installs.joins {now : Nat} {r r' : Registry} {settings : ProducerSettings}
    {result : Except Producer.InstallError Unit}
    (installs : Producer.Installs now r settings r' result) :
    ∃ more, r' = r.extend more ∧ r.Joins more := by
  cases installs with
  | failed e => exact ⟨⟨[], [], [], []⟩, by simp [Registry.extend], ⟨nofun, nofun, nofun⟩, nofun⟩
  | @static options kind decodes metric tags =>
    have added := addGauge_eq r options.metric options.tagList options.value
    refine ⟨_, congrArg Prod.fst added, gauge_fits _ _ _ _, ?_⟩
    simp [Addition.gauge]
  | process kind =>
    refine ⟨_, addProcess_eq r now, process_fits now r, ?_⟩
    simp [Addition.process]
  | @loadAverage path kind decodes =>
    refine ⟨_, addLoadAverage_eq r path, loadAverage_fits path r, ?_⟩
    simp [Addition.loadAverage, windowMetric, windowSeries]

/-! ## Estates -/

/-- A metric with its series, and the file whose load averages the producer keeps in
them if there is one. -/
structure Estate where
  metric : MetricId
  series : List SeriesId
  source : Option String
  distinct : series.Nodup
  windows : source ≠ none → series.length = 3

namespace Estate

variable (est : Estate)

/-- The callback is the one of the producer. -/
def Owns (path : String) (series : List SeriesId) : Prop :=
  est.source = some path ∧ series = est.series

/-- The file of the producer has these load averages. -/
def Reads (files : Files.Tree) (values : List Double) : Prop :=
  ∃ path text, est.source = some path ∧ files.readText path = .ok text ∧
    LoadAverage.parse? text = some values

end Estate

/-! ## What others may use -/

/-- All that scripts have numbers for, and all that callbacks set which do not belong to
the estate, lies within these metrics and series. -/
structure Station.Confined (est : Estate) (metrics : MetricId → Prop) (series : SeriesId → Prop)
    (st : Station) : Prop where
  apart : ∀ s, series s → s ∉ est.series
  metricNumbers : ∀ n m, st.metric? n = some m → metrics m
  seriesNumbers : ∀ n s, st.series? n = some s → series s
  owners : ∀ s m, s ∉ est.series → st.registry.owner? s = some m → metrics m
  uptimes : ∀ s started, .uptime s started ∈ st.registry.syncCallbacks → series s
  readers : ∀ path list, .loadAverage path list ∈ st.registry.asyncCallbacks →
    est.Owns path list ∨ ∀ s ∈ list, series s

namespace Station.Confined

variable {est : Estate} {metrics metrics' : MetricId → Prop} {series series' : SeriesId → Prop}
  {st st' : Station}

theorem imp (confined : st.Confined est metrics series) (wider : ∀ m, metrics m → metrics' m)
    (wider' : ∀ s, series s → series' s) (apart : ∀ s, series' s → s ∉ est.series) :
    st.Confined est metrics' series' where
  apart := apart
  metricNumbers n m found := wider m (confined.metricNumbers n m found)
  seriesNumbers n s found := wider' s (confined.seriesNumbers n s found)
  owners s m other found := wider m (confined.owners s m other found)
  uptimes s started member := wider' s (confined.uptimes s started member)
  readers path list member :=
    (confined.readers path list member).imp_right fun all s inside => wider' s (all s inside)

variable (confined : st.Confined est metrics series)
include confined

/-- A change without new numbers, owners and callbacks of producers. -/
theorem keep (metricNumbers : st'.metricNumbers = st.metricNumbers)
    (seriesNumbers : st'.seriesNumbers = st.seriesNumbers)
    (owner : ∀ s, st'.registry.owner? s = st.registry.owner? s)
    (uptimes : ∀ s started, .uptime s started ∈ st'.registry.syncCallbacks →
      .uptime s started ∈ st.registry.syncCallbacks)
    (readers : ∀ path list, .loadAverage path list ∈ st'.registry.asyncCallbacks →
      .loadAverage path list ∈ st.registry.asyncCallbacks) :
    st'.Confined est metrics series where
  apart := confined.apart
  metricNumbers n m found := by
    refine confined.metricNumbers n m ?_
    rwa [metric?, metricNumbers] at found
  seriesNumbers n s found := by
    refine confined.seriesNumbers n s ?_
    rwa [series?, seriesNumbers] at found
  owners s m other found := confined.owners s m other (owner s ▸ found)
  uptimes s started member := confined.uptimes s started (uptimes s started member)
  readers path list member := confined.readers path list (readers path list member)

theorem place {place : Place} {m : MetricId} (mine : st.place? place = some m) : metrics m := by
  cases place with
  | metric n => exact confined.metricNumbers n m mine
  | besides n =>
    obtain ⟨entry, found, rfl⟩ := Option.map_eq_some_iff.mp mine
    obtain ⟨s, numbered, there⟩ := Option.bind_eq_some_iff.mp found
    have other := confined.apart s (confined.seriesNumbers n s numbered)
    exact confined.owners s entry.owner other (by rw [Registry.owner?, there]; rfl)

theorem metric (fresh : metrics st.registry.metrics.size) (name : String)
    (sortField : Option String) : Confined est metrics series { st with
      registry := (st.registry.addMetric name sortField).1
      metricNumbers := st.metricNumbers.push st.registry.metrics.size } where
  apart := confined.apart
  metricNumbers n m found := by
    rw [metric?, Array.getElem?_push] at found
    split at found
    · exact Option.some.inj found ▸ fresh
    · exact confined.metricNumbers n m found
  seriesNumbers := confined.seriesNumbers
  owners := confined.owners
  uptimes := confined.uptimes
  readers := confined.readers

theorem create {m : MetricId} (mine : metrics m) (fresh : series st.registry.series.size)
    (tags : List Tag) : Confined est metrics series { st with
      registry := (st.registry.create m tags).1
      seriesNumbers := st.seriesNumbers.push st.registry.series.size } where
  apart := confined.apart
  metricNumbers := confined.metricNumbers
  seriesNumbers n s found := by
    rw [series?, Array.getElem?_push] at found
    split at found
    · exact Option.some.inj found ▸ fresh
    · exact confined.seriesNumbers n s found
  owners s owner other found := by
    rw [Registry.owner?_create] at found
    split at found
    · exact Option.some.inj found ▸ mine
    · exact confined.owners s owner other found
  uptimes := confined.uptimes
  readers := confined.readers

theorem set (s : SeriesId) (value : Double) :
    { st with registry := st.registry.set s value }.Confined est metrics series :=
  confined.keep rfl rfl (st.registry.owner?_set s · value) (fun _ _ => id) fun _ _ => id

theorem remove (s : SeriesId) :
    { st with registry := st.registry.remove s }.Confined est metrics series := by
  refine confined.keep rfl rfl (st.registry.owner?_remove s) ?_ ?_
  · exact fun _ _ member => st.registry.syncCallbacks_remove s ▸ member
  · exact fun _ _ member => st.registry.asyncCallbacks_remove s ▸ member

theorem setAll (list : List SeriesId) (values : List Double) :
    (st.setAll list values).Confined est metrics series := by
  refine confined.keep rfl rfl (st.registry.owner?_assign _) ?_ ?_
  · exact fun _ _ member => st.registry.assign_syncCallbacks _ ▸ member
  · exact fun _ _ member => st.registry.assign_asyncCallbacks _ ▸ member

theorem onSync (counter : Nat) (actions : List Action) :
    { st with registry := st.registry.onSync (.script counter actions) }.Confined est metrics
      series := by
  refine confined.keep rfl rfl (fun _ => rfl) (fun s started member => ?_) fun _ _ => id
  rcases List.mem_append.mp member with before | added
  · exact before
  · cases List.mem_singleton.mp added

theorem onAsync (counter : Nat) (call body : List Action) :
    { st with registry := st.registry.onAsync (.script counter call body) }.Confined est metrics
      series := by
  refine confined.keep rfl rfl (fun _ => rfl) (fun _ _ => id) fun path list member => ?_
  rcases List.mem_append.mp member with before | added
  · exact before
  · cases List.mem_singleton.mp added

theorem extend {more : Addition} (joins : st.registry.Joins more)
    (newMetrics : ∀ m, st.registry.metrics.size ≤ m →
      m < st.registry.metrics.size + more.metrics.length → metrics m)
    (newSeries : ∀ s, st.registry.Brings more s → series s) :
    { st with registry := st.registry.extend more }.Confined est metrics series where
  apart := confined.apart
  metricNumbers := confined.metricNumbers
  seriesNumbers := confined.seriesNumbers
  owners s m other found := by
    obtain ⟨entry, there, rfl⟩ := Option.map_eq_some_iff.mp found
    rw [Registry.extend, Array.getElem?_append] at there
    split at there
    · exact confined.owners s entry.owner other (by rw [Registry.owner?, there]; rfl)
    · have added := List.mem_toArray.mp (Array.mem_of_getElem? there)
      exact newMetrics _ (joins.owners entry added).1 (joins.owners entry added).2
  uptimes s started member := by
    rcases List.mem_append.mp member with before | added
    · exact confined.uptimes s started before
    · exact newSeries s (joins.syncCallbacks _ added)
  readers path list member := by
    rcases List.mem_append.mp member with before | added
    · exact confined.readers path list before
    · exact .inr fun s inside => newSeries s (joins.asyncCallbacks _ added s inside)

end Station.Confined

/-! ## Episodes -/

/-- What happens to a station: a producer is installed, or collections run on it while
scripts work and the files change. -/
inductive Episode where
  | install (now : Nat) (settings : ProducerSettings)
  | play (requests : List Request) (moves : List Move)

namespace Station

def pass (st : Station) : Episode → Station
  | .install now settings =>
    { st with registry := ((Producer.install now settings).on st.registry).1 }
  | .play requests moves => ((System.ofRequests st requests).play moves).station

def passAll (st : Station) (episodes : List Episode) : Station := episodes.foldl pass st

end Station

/-- The files that an episode leaves are of a kind. -/
def Episode.Leaves (kind : Files.Tree → Prop) : Episode → Prop
  | .install .. => True
  | .play _ moves => ∀ clock files, .deed (.world clock files) ∈ moves → kind files

namespace Upkeep

variable (u : Upkeep)

/-- Installations keep the property as well. -/
def Installed : Prop :=
  ∀ {st : Station}, u.holds st → ∀ now settings, u.holds (st.pass (.install now settings))

theorem play_upholds {st : Station} (held : u.holds st) (requests : List Request)
    {moves : List Move}
    (admitted : ∀ clock files, .deed (.world clock files) ∈ moves → u.admits files) :
    u.Upholds ((System.ofRequests st requests).play moves) := by
  refine (Upholds.ofRequests held requests).play fun move member => ?_
  cases move with
  | poll index => trivial
  | deed d =>
    cases d with
    | act context actions => trivial
    | world clock files => exact admitted clock files member

theorem passAll_keeps (installed : u.Installed) {st : Station} (held : u.holds st)
    {episodes : List Episode} (leaves : ∀ episode ∈ episodes, episode.Leaves u.admits) :
    u.holds (st.passAll episodes) := by
  induction episodes generalizing st with
  | nil => exact held
  | cons episode rest ih =>
    refine ih ?_ fun other member => leaves other (List.mem_cons_of_mem _ member)
    cases episode with
    | install now settings => exact installed held now settings
    | play requests moves =>
      exact (u.play_upholds held requests (leaves _ List.mem_cons_self)).station

end Upkeep

/-- The files that a station has at first or that one of the episodes leaves. -/
def Station.Sees (st : Station) (episodes : List Episode) (files : Files.Tree) : Prop :=
  files = st.files ∨
    ∃ requests moves clock, .play requests moves ∈ episodes ∧ .deed (.world clock files) ∈ moves

theorem Episode.leaves_sees {episodes : List Episode} {episode : Episode}
    (member : episode ∈ episodes) (st : Station) : episode.Leaves (st.Sees episodes) := by
  cases episode with
  | install now settings => trivial
  | play requests moves => exact fun clock _ left => .inr ⟨requests, moves, clock, member, left⟩

/-! ## Proper stations -/

/-- Nothing belongs to this estate. -/
def Estate.nobody : Estate := ⟨0, [], none, List.nodup_nil, fun named => absurd rfl named⟩

/-- Numbers of scripts, owners of series and callbacks of producers refer to metrics and
series that there are. -/
def Station.Proper (st : Station) : Prop :=
  st.Confined .nobody (· < st.registry.metrics.size) (· < st.registry.series.size)

namespace Station.Proper

variable {st st' : Station}

theorem grow (proper : st.Proper) {metrics series : Nat}
    (more : st.registry.metrics.size ≤ metrics) (more' : st.registry.series.size ≤ series) :
    st.Confined .nobody (· < metrics) (· < series) :=
  proper.imp (fun _ inside => Nat.lt_of_lt_of_le inside more)
    (fun _ inside => Nat.lt_of_lt_of_le inside more') fun _ _ => List.not_mem_nil

theorem of_confined {metrics series : Nat}
    (confined : st.Confined .nobody (· < metrics) (· < series))
    (allMetrics : st.registry.metrics.size = metrics)
    (allSeries : st.registry.series.size = series) : st.Proper := by
  rw [Proper, allMetrics, allSeries]
  exact confined

/-- Whatever callbacks and scripts do, a station stays proper. -/
def upkeep : Upkeep where
  holds := Station.Proper
  admits _ := True
  same proper registry _ metricNumbers seriesNumbers := by
    have kept := proper.keep metricNumbers seriesNumbers (fun s => by rw [registry])
      (fun s started => by rw [registry]; exact id) fun path list => by rw [registry]; exact id
    exact of_confined kept (by rw [registry]) (by rw [registry])
  world proper _ _ :=
    of_confined (proper.keep rfl rfl (fun _ => rfl) (fun _ _ => id) fun _ _ => id) rfl rfl
  metric {st} proper name sortField := by
    have wider := proper.grow (Nat.le_succ _) (Nat.le_refl _)
    have made := wider.metric (Nat.lt_succ_self _) name sortField
    exact of_confined made (Array.size_push _) rfl
  create {st} proper {place m} mine tags := by
    have wider := proper.grow (Nat.le_refl _) (Nat.le_succ _)
    have made := wider.create (wider.place mine) (Nat.lt_succ_self _) tags
    exact of_confined made (st.registry.size_metrics_create m tags) (Array.size_push _)
  set {_} proper {_ _} _ value :=
    of_confined (proper.set _ value) rfl (Registry.size_series_set _ _ _)
  remove {_} proper {_ _} _ := of_confined (proper.remove _) (Registry.size_metrics_remove _ _)
    (by rw [Registry.series_remove])
  onSync proper counter actions := of_confined (proper.onSync counter actions) rfl rfl
  onAsync proper counter call body := of_confined (proper.onAsync counter call body) rfl rfl
  uptime {_} proper {_ _} _ value :=
    of_confined (proper.set _ value) rfl (Registry.size_series_set _ _ _)
  refresh {_} proper {_ _ _ _} _ _ _ := of_confined (proper.setAll _ _)
    (congrArg Array.size (Registry.metrics_assign _ _)) (Registry.size_assign _ _)

/-- Nothing refers to anything on a fresh station. -/
theorem empty : Station.Proper {} := by
  refine ⟨fun _ => nofun, fun n m found => ?_, fun n s found => ?_, fun s m _ found => ?_,
    fun _ _ => nofun, fun _ _ => nofun⟩
  · exact absurd found (by simp [metric?])
  · exact absurd found (by simp [series?])
  · exact absurd found (by simp [Registry.owner?])

/-- Producers that are installed leave a proper station. -/
theorem installed : upkeep.Installed := by
  intro st proper now settings
  obtain ⟨more, added, joins⟩ := (Producer.installs now st.registry settings).joins
  have wider := proper.grow (Nat.le_add_right _ more.metrics.length)
    (Nat.le_add_right _ more.series.length)
  have joined := wider.extend joins (fun _ _ inside => inside) fun _ brought => brought.2
  rw [Station.pass, added]
  exact of_confined joined (Registry.size_metrics_extend _ _) (Registry.size_extend _ _)

/-- Whatever happens to a proper station, it stays proper. -/
theorem pass (proper : st.Proper) (episodes : List Episode) : (st.passAll episodes).Proper :=
  upkeep.passAll_keeps installed proper fun episode _ => match episode with
    | .install .. => trivial
    | .play .. => fun _ _ _ => trivial

end Station.Proper

end GaugeExporter
