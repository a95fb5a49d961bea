import GaugeExporter.Proofs.Collection.Effects
import GaugeExporter.Proofs.Collection.Exclusion

/-!
# Collections and files

Callbacks read files and change none.  So every act of a collection leaves the
files as they are (`Request.files_invariant`), a turn of it with them
(`Request.turn_files`), and so does every poll of a system (`System.poll_files`).
-/

namespace GaugeExporter

namespace Station

variable (context : Context) (token : TokenId) (st : Station)

@[simp] theorem cancel_files : (st.cancel token).files = st.files := by
  unfold cancel
  split <;> rfl

theorem createIn_files (metric : MetricId) (tags : List Tag) (value : Option Binary.Double) :
    (st.createIn metric tags value).files = st.files := rfl

theorem bulk_files (metric : MetricId) (rows : List (List Tag × Option Binary.Double)) :
    (rows.foldl (fun st (tags, value) => st.createIn metric tags value) st).files = st.files :=
  List.foldlRecOn rows _ (motive := fun st' : Station => st'.files = st.files) rfl
    fun st' same row _ => (st'.createIn_files metric row.1 row.2).trans same

theorem atSeries_files (number : Nat) (change : Registry → SeriesId → Registry) :
    (st.atSeries number change).files = st.files := by
  unfold atSeries
  split <;> rfl

mutual

theorem perform_files (st : Station) : ∀ action : Action,
    (st.perform context action).1.files = st.files
  | .metric .. | .onSync _ | .onAsync .. | .log _ | .fail .. | .tick | .yield | .pending => rfl
  | .create place tags value => by
    simp only [perform]
    split <;> rfl
  | .bulk number rows => by
    simp only [perform]
    split
    · exact bulk_files st _ rows
    · rfl
  | .set number value => atSeries_files st number _
  | .add number value => atSeries_files st number _
  | .remove number => atSeries_files st number _
  | .cancel collection => by
    simp only [perform]
    split
    · exact cancel_files _ st
    · rfl
  | .cancelOwn => cancel_files _ st
  | .choose choice => performAll_files st (choice (glimpse context st))

theorem performAll_files (st : Station) : ∀ actions : List Action,
    (st.performAll context actions).1.files = st.files
  | [] => rfl
  | action :: rest => by
    have first := perform_files st action
    rw [performAll]
    split
    next failed => rw [failed] at first; exact first
    next mid done =>
      rw [done] at first
      exact (performAll_files mid rest).trans first

end

theorem runSync_files (callback : SyncCallback) :
    (st.runSync token callback).1.files = st.files := by
  cases callback with
  | script counter actions => exact performAll_files _ _ actions
  | uptime series started => rfl

theorem call_files (callback : AsyncCallback) : (st.call token callback).1.files = st.files := by
  cases callback with
  | script counter actions body =>
    have performed := performAll_files ⟨token, (st.start counter).2⟩ (st.start counter).1 actions
    simp only [call]
    split
    next done => rw [done] at performed; exact performed
    next failed => rw [failed] at performed; exact performed
  | loadAverage path series => rfl

theorem refreshLoad_files (path : String) (series : List SeriesId) :
    (st.refreshLoad path series).1.files = st.files := by
  unfold refreshLoad
  split
  · rfl
  · rfl
  · split <;> rfl

theorem pollScript_files (rest : List Action) :
    (st.pollScript context rest).1.files = st.files := by
  fun_induction pollScript context st rest with
  | case1 st => rfl
  | case2 st => rfl
  | case3 st => rfl
  | case4 st action rest _ _ mid failure failed =>
    have first := perform_files context st action
    rw [failed] at first
    exact first
  | case5 st action rest _ _ mid done ih =>
    have first := perform_files context st action
    rw [done] at first
    exact ih.trans first

theorem poll_files (body : Body) : (st.poll token body).1.files = st.files := by
  cases body with
  | script run rest => exact pollScript_files _ st rest
  | failed text => rfl
  | openFile path series => rfl
  | readFile path series =>
    have refreshed := refreshLoad_files st path series
    simp only [poll]
    split
    next failed => rw [failed] at refreshed; exact refreshed
    next done => rw [done] at refreshed; exact refreshed

end Station

namespace Request

variable {request : Request}

/-- No act changes the files. -/
theorem files_invariant (files : Files.Tree) :
    request.Invariant fun bench => bench.station.files = files where
  mark before event := (Still.mark _ event).store.files.symm.trans before
  pool before _ := before
  ran before _ _ := (Station.runSync_files ..).trans before
  called before _ _ := (Station.call_files ..).trans before
  polled before _ _ _ := (Station.poll_files ..).trans before

theorem turn_files (request : Request) (granted : Bool) (st : Station) (out : Bytes)
    (phase : Phase) : (request.turn granted st out phase).1.files = st.files := by
  obtain ⟨slots, awaits⟩ := phase.exists_awaits
  obtain ⟨slots', same, -⟩ := (files_invariant st.files).turn rfl granted out awaits
  exact same

end Request

namespace System

theorem advance_files (sys : System) (index : Nat) (task : Task) (gate : Gate) :
    (sys.advance index task gate).station.files = sys.station.files := by
  have turned := task.request.turn_files true sys.station task.out task.phase
  generalize turn : task.request.next true (task.moment sys.station) = moment
  obtain unfinished | ⟨outcome, ended⟩ := moment.phase.open_or_ended
  · rw [advance_open turn unfinished, ← turn]
    exact turned
  · rw [advance_ended turn ended, ← turn]
    exact turned

/-- Whatever a system is brought to do by a poll: the files stay as they are. -/
theorem poll_files (sys : System) (index : Nat) :
    (sys.poll index).station.files = sys.station.files := by
  have polled := sys.polls index
  generalize sys.poll index = next at polled ⊢
  cases polled with
  | idle nothing => rfl
  | refused found waiting cancelled => rfl
  | queued found waiting calm denied => rfl
  | entered found waiting calm granted => exact sys.advance_files index _ _
  | resumed found awaiting => exact sys.advance_files index _ _

end System

end GaugeExporter
