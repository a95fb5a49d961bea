import GaugeExporter.Proofs.Producer.Estates

/-!
# Load averages over many collections

A refresh sets the series of all three windows from one reading of the file, or none of
them (`Station.refreshLoad_refreshes`).  The windows are an estate, so this is so through
every schedule of collections and scripts while the file comes and goes
(`Producer.loadAverages_whole`), and a document shows them in the order of their texts,
which is not the order in which they are set.
-/

namespace GaugeExporter

open Binary (Double)

/-! ## Readings of the file -/

namespace LoadAverage

/-- The file is a text whose first three fields are these numbers, whatever follows. -/
def Gives (files : Files.Tree) (path : String) (one five fifteen : Double) : Prop :=
  ∃ text first second third rest, files.readText path = .ok text ∧
    Text.fields text.toList = first :: second :: third :: rest ∧
    Double.ofText? first = some one ∧ Double.ofText? second = some five ∧
    Double.ofText? third = some fifteen

theorem parse?_eq_some {text : String} {one five fifteen : Double} :
    parse? text = some [one, five, fifteen] ↔ ∃ first second third rest,
      Text.fields text.toList = first :: second :: third :: rest ∧
      Double.ofText? first = some one ∧ Double.ofText? second = some five ∧
      Double.ofText? third = some fifteen := by
  unfold parse?
  match Text.fields text.toList with
  | [] => simp
  | [_] => simp
  | [_, _] => simp
  | first :: second :: third :: rest =>
    cases a : Double.ofText? first <;> cases b : Double.ofText? second <;>
      cases c : Double.ofText? third <;> simp [a, b, c]

theorem gives_iff {files : Files.Tree} {path : String} {one five fifteen : Double} :
    Gives files path one five fifteen ↔
      ∃ text, files.readText path = .ok text ∧ parse? text = some [one, five, fifteen] := by
  constructor
  · rintro ⟨text, first, second, third, rest, read, fields⟩
    exact ⟨text, read, parse?_eq_some.mpr ⟨first, second, third, rest, fields⟩⟩
  · rintro ⟨text, read, understood⟩
    obtain ⟨first, second, third, rest, fields⟩ := parse?_eq_some.mp understood
    exact ⟨text, first, second, third, rest, read, fields⟩

theorem three_of_parse? {text : String} {values : List Double}
    (understood : parse? text = some values) :
    ∃ one five fifteen, values = [one, five, fifteen] := by
  match values, length_of_parse? understood with
  | [one, five, fifteen], _ => exact ⟨one, five, fifteen, rfl⟩

end LoadAverage

/-! ## One refresh -/

/-- What a series has when three series in a row have got these values: one of them if it
is among the three, what it had otherwise. -/
def given (s : SeriesId) (one five fifteen : Double) (t : SeriesId) (old : Double) : Double :=
  if s = t then one else if s + 1 = t then five else if s + 2 = t then fifteen else old

/-- Three series in a row have got these values, and nothing else has changed. -/
structure Station.Receives (st st' : Station) (s : SeriesId) (one five fifteen : Double) :
    Prop where
  series : ∀ t, st'.registry.series[t]? = st.registry.series[t]?.map
    fun entry : Series => { entry with value := given s one five fifteen t entry.value }
  rest : st' = { st with registry := { st.registry with series := st'.registry.series } }

/-- What a refresh of three series in a row can do: nothing if the file is missing, all
three values if it has them, and a failure that changes nothing in every other case. -/
structure Station.Refreshes (st : Station) (path : String) (s : SeriesId) : Prop where
  missing : st.files.readText path = .error .notFound →
    st.refreshLoad path [s, s + 1, s + 2] = (st, none)
  given : ∀ one five fifteen, LoadAverage.Gives st.files path one five fifteen →
    ∃ st', st.refreshLoad path [s, s + 1, s + 2] = (st', none) ∧
      st.Receives st' s one five fifteen
  otherwise : st.files.readText path ≠ .error .notFound →
    (¬ ∃ one five fifteen, LoadAverage.Gives st.files path one five fifteen) →
    ∃ failure, st.refreshLoad path [s, s + 1, s + 2] = (st, some failure)

namespace Station

theorem setAll_receives (st : Station) (s : SeriesId) (one five fifteen : Double) :
    st.Receives (st.setAll [s, s + 1, s + 2] [one, five, fifteen]) s one five fifteen where
  series t := by
    have sets : (st.setAll [s, s + 1, s + 2] [one, five, fifteen]).registry
        = ((st.registry.set s one).set (s + 1) five).set (s + 2) fifteen := rfl
    rw [sets]
    simp only [Registry.set, Array.getElem?_modify]
    cases st.registry.series[t]? with
    | none => simp
    | some entry =>
      by_cases first : s = t
      · subst first
        simp [given]
      by_cases second : s + 1 = t
      · subst second
        simp [given]
      by_cases third : s + 2 = t
      · subst third
        simp [given]
      · simp [given, first, second, third]
  rest := rfl

theorem refreshLoad_refreshes (st : Station) (path : String) (s : SeriesId) :
    st.Refreshes path s where
  missing absent := by rw [refreshLoad, absent]
  given one five fifteen gives := by
    obtain ⟨text, read, understood⟩ := LoadAverage.gives_iff.mp gives
    refine ⟨_, ?_, st.setAll_receives s one five fifteen⟩
    simp only [refreshLoad, read, understood]
  otherwise present unreadable := by
    unfold refreshLoad
    split
    next absent => exact absurd absent present
    next fault _ _ => exact ⟨_, rfl⟩
    next text read =>
      split
      next => exact ⟨_, rfl⟩
      next values understood =>
        obtain ⟨one, five, fifteen, rfl⟩ := LoadAverage.three_of_parse? understood
        exact absurd ⟨one, five, fifteen, LoadAverage.gives_iff.mpr ⟨text, read, understood⟩⟩
          unreadable

end Station

/-! ## The windows as an estate -/

namespace Producer

variable (path : String) (r : Registry)

/-- The series of the windows that the load averages get in a registry: one minute, five
minutes, fifteen minutes. -/
def windowsIn : List SeriesId := [r.series.size, r.series.size + 1, r.series.size + 2]

def windowsEstate : Estate where
  metric := r.metrics.size
  series := windowsIn r
  source := some path
  distinct := by simp [windowsIn]
  windows _ := rfl

theorem tags_windowsIn : (windowsIn r).map (r.extend (.loadAverage path r)).tags
    = LoadAverage.windows.map fun window => [⟨LoadAverage.windowKey, window⟩] := by
  simp [windowsIn, Registry.tags, Registry.extend, Addition.loadAverage, windowSeries,
    LoadAverage.windows]

theorem values_windowsIn : (windowsIn r).map (r.extend (.loadAverage path r)).value
    = [.nan, .nan, .nan] := by
  simp [windowsIn, Registry.value, Registry.extend, Addition.loadAverage, windowSeries]

variable {path r} {st : Station}

theorem windowsEstate_start (proper : st.Proper) (path : String) {seen : Files.Tree → Prop}
    (files : seen st.files) : (windowsEstate path st.registry).Kept seen
      (st.registry.extend (.loadAverage path st.registry))
      { st with registry := st.registry.extend (.loadAverage path st.registry) } := by
  refine .start proper rfl (fun (s : Nat) => ?_) rfl (fun path list member => ?_)
    (List.cons_ne_nil _ _) files
  · have windows : s ∈ (windowsEstate path st.registry).series
        ↔ s = st.registry.series.size ∨ s = st.registry.series.size + 1
          ∨ s = st.registry.series.size + 2 := by simp [windowsEstate, windowsIn]
    have brought : st.registry.Brings (.loadAverage path st.registry) s
        ↔ st.registry.series.size ≤ s ∧ s < st.registry.series.size + 3 := Iff.rfl
    rw [windows, brought]
    omega
  · cases List.mem_singleton.mp member
    exact ⟨rfl, rfl⟩

/-- The values of the windows that can be known: none, or those of one reading of the file
that a system has seen. -/
def Known (seen : Files.Tree → Prop) (path : String) (averages : List Double) : Prop :=
  averages = [.nan, .nan, .nan] ∨
    ∃ files one five fifteen, seen files ∧ LoadAverage.Gives files path one five fifteen ∧
      averages = [one, five, fifteen]

section Kept

variable {seen : Files.Tree → Prop}
  (kept : (windowsEstate path r).Kept seen (r.extend (.loadAverage path r)) st)
include kept

theorem known_of_kept : Known seen path ((windowsIn r).map st.registry.value) := by
  obtain untouched | ⟨files, sees, _, text, source, read, understood⟩ := kept.values
  · exact .inl (untouched.trans (values_windowsIn path r))
  · cases source
    exact .inr ⟨files, _, _, _, sees, LoadAverage.gives_iff.mpr ⟨text, read, understood⟩, rfl⟩

theorem tags_of_kept : (windowsIn r).map st.registry.tags
    = LoadAverage.windows.map fun window => [⟨LoadAverage.windowKey, window⟩] := by
  rw [← tags_windowsIn path r]
  exact List.map_congr_left kept.tags

/-- The metric lists the windows in the order of their texts. -/
theorem shows_of_kept (timestamp : Int) :
    st.registry.ShowsAt r.metrics.size
      (Reading.shown timestamp (loadReading ((windowsIn r).map st.registry.value)))
      (st.registry.document timestamp) := by
  have registered : (r.extend (.loadAverage path r)).metrics[r.metrics.size]?
      = some (windowMetric [r.series.size + 2, r.series.size, r.series.size + 1]) := by
    simp [Registry.extend, Addition.loadAverage]
  have listed : ∀ s ∈ [r.series.size + 2, r.series.size, r.series.size + 1],
      s ∈ windowsIn r := by
    simp [windowsIn]
  have shows := kept.shows registered listed timestamp
  have windows := tags_windowsIn path r
  simp only [windowsIn, LoadAverage.windows, List.map_cons, List.map_nil, List.cons.injEq,
    and_true] at windows
  obtain ⟨one, five, fifteen⟩ := windows
  simp only [windowMetric, List.map_cons, List.map_nil, one, five, fifteen] at shows
  exact shows

end Kept

/-! ## Whole readings -/

/-- A refresh sets the windows from the first three fields of a reading, all of them or
none.  So whatever happens to the station, their values are not known or those of one
reading, and what a collection shows of them stands in the order 15m, 1m, 5m. -/
theorem loadAverages_whole (proper : st.Proper) (path : String) :
    let start := { st with registry := addLoadAverage path st.registry }
    let windows := windowsIn st.registry
    start.registry.asyncCallbacks
        = st.registry.asyncCallbacks ++ [.loadAverage path windows] ∧
      (∀ st' : Station, st'.Refreshes path st.registry.series.size) ∧
      ∀ episodes requests moves,
        let seen := start.Sees (episodes ++ [.play requests moves])
        let after (front : List Move) :=
          (System.ofRequests (start.passAll episodes) requests).play front
        (∀ front, front <+: moves →
          windows.map (after front).station.registry.tags
              = LoadAverage.windows.map (fun window => [⟨LoadAverage.windowKey, window⟩]) ∧
            Known seen path (windows.map (after front).station.registry.value)) ∧
          ∀ task ∈ (after moves).tasks, task.phase = .ended (.ok ()) →
            ∃ front document, front <+: moves ∧ task.out = task.request.buffer ++ document ∧
              (after front).station.registry.ShowsAt st.registry.metrics.size
                (Reading.shown task.request.timestamp
                  (loadReading (windows.map (after front).station.registry.value)))
                document := by
  intro start windows
  have added : start = { st with registry := st.registry.extend (.loadAverage path st.registry) } :=
    congrArg (fun registry => { st with registry }) (addLoadAverage_eq st.registry path)
  refine ⟨by rw [added]; rfl, fun st' => st'.refreshLoad_refreshes path _, ?_⟩
  intro episodes requests moves seen
  have kept : (windowsEstate path st.registry).Kept seen _ _ :=
    windowsEstate_start proper path (.inl rfl)
  rw [← added] at kept
  refine ⟨fun front part => ?_, fun task member succeeded => ?_⟩
  · have now := kept.play part
    exact ⟨tags_of_kept now, known_of_kept now⟩
  · obtain ⟨front, part, now, out⟩ := kept.document member succeeded
    exact ⟨front, _, part, out, shows_of_kept now task.request.timestamp⟩

/-- The windows come between the gauges of a process and another gauge, and the file
appears while a collection is under way. -/
theorem loadAverages_behind_process :
    let st := Station.passAll {} [.install 0 ⟨"process", []⟩]
    let start := { st with registry := addLoadAverage "/load" st.registry }
    let gauge := Episode.install 0 ⟨"static", [("metric", .string "up"), ("value", .integer 1)]⟩
    let file : Files.Tree := ⟨[(["load"], .file (Text.bytes "0.5 nan 2 1/80 99"))]⟩
    let request : Request := { timestamp := 7, token := 0 }
    let moves := [.poll 0, .deed (.world 0 file), .poll 0]
    let sys := (System.ofRequests (start.passAll [gauge]) [request]).play moves
    st.Proper ∧ windowsIn st.registry = [2, 3, 4] ∧
      Known (start.Sees ([gauge] ++ [.play [request] moves])) "/load"
        ((windowsIn st.registry).map sys.station.registry.value) := by
  intro st start gauge file request moves sys
  have proper : st.Proper := Station.Proper.empty.pass _
  have whole := loadAverages_whole proper "/load"
  have known := ((whole.2.2 [gauge] [request] moves).1 moves (List.prefix_refl _)).2
  refine ⟨proper, rfl, ?_⟩
  simpa only [sys, start] using known

end Producer

end GaugeExporter
