import GaugeExporter.Collection.Scrape

/-!
# What happens on a station

`Since st st' events` says that `events` is what the journal gained between two
moments, that exactly the tokens it names were cancelled, and that metrics and
callbacks were only ever added.  Whatever a callback does is of this kind and
leaves no event of any collection (`Background`): by induction over its actions,
which may choose further actions as they go.
-/

namespace GaugeExporter

open Binary (Double)

namespace Station

/-- The journal gained these events. -/
structure Since (st st' : Station) (events : List Event) : Prop where
  journal : st'.journal.toList = st.journal.toList ++ events
  tokens : ∀ token, st'.isCancelled token = true ↔
    st.isCancelled token = true ∨ Event.cancelled token ∈ events
  syncCallbacks : st.registry.syncCallbacks <+: st'.registry.syncCallbacks
  asyncCallbacks : st.registry.asyncCallbacks <+: st'.registry.asyncCallbacks
  metrics : st.registry.metricCount ≤ st'.registry.metricCount

namespace Since

theorem refl (st : Station) : Since st st [] where
  journal := (List.append_nil _).symm
  tokens token := by simp
  syncCallbacks := List.prefix_refl _
  asyncCallbacks := List.prefix_refl _
  metrics := Nat.le_refl _

theorem trans {first second third : Station} {before after : List Event}
    (left : Since first second before) (right : Since second third after) :
    Since first third (before ++ after) where
  journal := by rw [right.journal, left.journal, List.append_assoc]
  tokens token := by rw [right.tokens, left.tokens, List.mem_append, or_assoc]
  syncCallbacks := left.syncCallbacks.trans right.syncCallbacks
  asyncCallbacks := left.asyncCallbacks.trans right.asyncCallbacks
  metrics := Nat.le_trans left.metrics right.metrics

/-- The events between two moments are determined. -/
theorem unique {st st' : Station} {events events' : List Event} (since : Since st st' events)
    (since' : Since st st' events') : events = events' :=
  List.append_cancel_left (since.journal.symm.trans since'.journal)

/-- A token that is not cancelled now has not been cancelled on the way. -/
theorem calm {st st' : Station} {events : List Event} (since : Since st st' events)
    {token : TokenId} (calm : st'.isCancelled token = false) :
    st.isCancelled token = false ∧ Event.cancelled token ∉ events := by
  have never := mt (since.tokens token).mpr (by simp [calm])
  simpa [not_or] using never

/-- Only the registry, the journal and the tokens count. -/
theorem of_eq {st st' mid : Station} {events : List Event} (since : Since st mid events)
    (journal : st'.journal = mid.journal) (cancelled : st'.cancelled = mid.cancelled)
    (registry : st'.registry = mid.registry) : Since st st' events where
  journal := by rw [journal, since.journal]
  tokens token := by
    rw [← since.tokens, isCancelled, isCancelled, cancelled]
  syncCallbacks := by rw [registry]; exact since.syncCallbacks
  asyncCallbacks := by rw [registry]; exact since.asyncCallbacks
  metrics := by rw [registry]; exact since.metrics

end Since

/-! ## Journal entries and cancellations -/

theorem record_since (st : Station) {event : Event}
    (noCancellation : ∀ token, event ≠ .cancelled token) : Since st (st.record event) [event] where
  journal := Array.toList_push
  tokens token := by
    simp only [List.mem_singleton, (noCancellation token).symm, or_false]
    exact Iff.rfl
  syncCallbacks := List.prefix_refl _
  asyncCallbacks := List.prefix_refl _
  metrics := Nat.le_refl _

/-- Cancelling a token leaves one entry, none if it was cancelled before. -/
theorem cancel_since (st : Station) (token : TokenId) :
    Since st (st.cancel token) (if st.isCancelled token then [] else [.cancelled token]) := by
  unfold cancel
  split
  · exact Since.refl st
  · exact {
      journal := Array.toList_push
      tokens := fun other => by
        simp only [isCancelled, record, List.contains_cons, Bool.or_eq_true, beq_iff_eq,
          List.mem_singleton, Event.cancelled.injEq]
        exact or_comm
      syncCallbacks := List.prefix_refl _
      asyncCallbacks := List.prefix_refl _
      metrics := Nat.le_refl _ }

/-! ## Scripts -/

/-- Something happened that belongs to no collection. -/
def Background (st st' : Station) : Prop :=
  ∃ events, Since st st' events ∧ ∀ event ∈ events, event.collection? = none

namespace Background

theorem refl (st : Station) : Background st st := ⟨[], Since.refl st, by simp⟩

theorem trans {first second third : Station} (left : Background first second)
    (right : Background second third) : Background first third := by
  obtain ⟨before, since, noneBefore⟩ := left
  obtain ⟨after, since', noneAfter⟩ := right
  refine ⟨before ++ after, since.trans since', fun event member => ?_⟩
  exact (List.mem_append.mp member).elim (noneBefore event) (noneAfter event)

/-- A change of the registry that keeps its callbacks and its metrics. -/
theorem of_registry {st st' : Station} (journal : st'.journal = st.journal)
    (cancelled : st'.cancelled = st.cancelled)
    (syncCallbacks : st.registry.syncCallbacks <+: st'.registry.syncCallbacks)
    (asyncCallbacks : st.registry.asyncCallbacks <+: st'.registry.asyncCallbacks)
    (metrics : st.registry.metricCount ≤ st'.registry.metricCount) : Background st st' :=
  ⟨[], ⟨by rw [journal, List.append_nil], fun token => by simp [isCancelled, cancelled],
    syncCallbacks, asyncCallbacks, metrics⟩, by simp⟩

theorem of_same {st st' : Station} (journal : st'.journal = st.journal)
    (cancelled : st'.cancelled = st.cancelled) (registry : st'.registry = st.registry) :
    Background st st' :=
  of_registry journal cancelled (registry ▸ List.prefix_refl _) (registry ▸ List.prefix_refl _)
    (registry ▸ Nat.le_refl _)

theorem cancel (st : Station) (token : TokenId) : Background st (st.cancel token) := by
  refine ⟨_, cancel_since st token, fun event member => ?_⟩
  split at member
  · cases member
  · rw [List.mem_singleton.mp member]; rfl

end Background

/-- Changes of series keep the lists of metrics and callbacks. -/
structure SameLists (r r' : Registry) : Prop where
  metrics : r'.metricCount = r.metricCount
  syncCallbacks : r'.syncCallbacks = r.syncCallbacks
  asyncCallbacks : r'.asyncCallbacks = r.asyncCallbacks

namespace SameLists

theorem set (r : Registry) (s : SeriesId) (v : Double) : SameLists r (r.set s v) := ⟨rfl, rfl, rfl⟩

theorem create (r : Registry) (m : MetricId) (tags : List Tag) : SameLists r (r.create m tags).1 :=
  ⟨Registry.size_metrics_create r m tags, rfl, rfl⟩

theorem remove (r : Registry) (s : SeriesId) : SameLists r (r.remove s) := by
  refine ⟨Registry.size_metrics_remove r s, ?_, ?_⟩ <;>
    · unfold Registry.remove
      split <;> rfl

theorem trans {first second third : Registry} (left : SameLists first second)
    (right : SameLists second third) : SameLists first third :=
  ⟨right.metrics.trans left.metrics, right.syncCallbacks.trans left.syncCallbacks,
    right.asyncCallbacks.trans left.asyncCallbacks⟩

theorem background {st st' : Station} (same : SameLists st.registry st'.registry)
    (journal : st'.journal = st.journal) (cancelled : st'.cancelled = st.cancelled) :
    Background st st' :=
  .of_registry journal cancelled (same.syncCallbacks ▸ List.prefix_refl _)
    (same.asyncCallbacks ▸ List.prefix_refl _) (Nat.le_of_eq same.metrics.symm)

end SameLists

theorem createIn_background (st : Station) (m : MetricId) (tags : List Tag)
    (value : Option Double) : Background st (st.createIn m tags value) := by
  refine SameLists.background ?_ rfl rfl
  cases value with
  | none => exact SameLists.create st.registry m tags
  | some v => exact (SameLists.create st.registry m tags).trans (.set _ _ v)

theorem bulk_background (m : MetricId) (rows : List (List Tag × Option Double)) (st : Station) :
    Background st (rows.foldl (fun st (tags, value) => st.createIn m tags value) st) := by
  induction rows generalizing st with
  | nil => exact .refl st
  | cons row rest ih => exact (createIn_background st m row.1 row.2).trans (ih _)

theorem atSeries_background (st : Station) (number : Nat)
    {change : Registry → SeriesId → Registry} (same : ∀ r s, SameLists r (change r s)) :
    Background st (st.atSeries number change) := by
  unfold atSeries
  split
  · exact (same _ _).background rfl rfl
  · exact .refl st

theorem record_note_background (st : Station) (text : String) :
    Background st (st.record (.note text)) :=
  ⟨_, record_since st (by simp), by simp [Event.collection?]⟩

mutual

theorem perform_background (context : Context) (st : Station) :
    ∀ action : Action, Background st (st.perform context action).1
  | .metric name sortField => by
    refine .of_registry rfl rfl (List.prefix_refl _) (List.prefix_refl _) ?_
    simp [perform, Registry.addMetric, Registry.metricCount]
  | .create place tags value => by
    simp only [perform]
    split
    · exact createIn_background st _ tags value
    · exact .refl st
  | .bulk number rows => by
    simp only [perform]
    split
    · exact bulk_background _ rows st
    · exact .refl st
  | .set number value => atSeries_background st number fun r s => .set r s value
  | .add number value =>
    atSeries_background st number fun r s => .set r s ((r.value s).add value)
  | .remove number => atSeries_background st number fun r s => .remove r s
  | .onSync actions =>
    .of_registry rfl rfl (List.prefix_append _ _) (List.prefix_refl _) (Nat.le_refl _)
  | .onAsync call body =>
    .of_registry rfl rfl (List.prefix_refl _) (List.prefix_append _ _) (Nat.le_refl _)
  | .log text => record_note_background st _
  | .fail text runs => .refl st
  | .cancel collection => by
    simp only [perform]
    split
    · exact .cancel st _
    · exact .refl st
  | .cancelOwn => .cancel st _
  | .tick => .of_same rfl rfl rfl
  | .choose choice => performAll_background context st (choice (glimpse context st))
  | .yield => .refl st
  | .pending => .refl st

theorem performAll_background (context : Context) (st : Station) :
    ∀ actions : List Action, Background st (st.performAll context actions).1
  | [] => .refl st
  | action :: rest => by
    have first := perform_background context st action
    rw [performAll]
    split
    next failed => rw [failed] at first; exact first
    next mid done =>
      rw [done] at first
      exact first.trans (performAll_background context mid rest)

end

/-! ## Callbacks -/

theorem start_background (st : Station) (counter : Nat) : Background st (st.start counter).1 :=
  .of_same rfl rfl rfl

theorem runSync_background (token : TokenId) (st : Station) (callback : SyncCallback) :
    Background st (st.runSync token callback).1 := by
  cases callback with
  | script counter actions =>
    exact (start_background st counter).trans (performAll_background _ _ actions)
  | uptime series started => exact (SameLists.set _ _ _).background rfl rfl

theorem call_background (token : TokenId) (st : Station) (callback : AsyncCallback) :
    Background st (st.call token callback).1 := by
  cases callback with
  | script counter actions body =>
    have performed := (start_background st counter).trans
      (performAll_background ⟨token, (st.start counter).2⟩ _ actions)
    simp only [call]
    split
    next done => rw [done] at performed; exact performed
    next failed => rw [failed] at performed; exact performed
  | loadAverage path series => exact .refl st

theorem setAll_background (st : Station) (series : List SeriesId) (values : List Double) :
    Background st (st.setAll series values) := by
  suffices same : ∀ (pairs : List (SeriesId × Double)) (r : Registry),
      SameLists r (pairs.foldl (fun r pair => r.set pair.1 pair.2) r) from
    (same _ _).background rfl rfl
  intro pairs
  induction pairs with
  | nil => exact fun r => ⟨rfl, rfl, rfl⟩
  | cons pair rest ih => exact fun r => (SameLists.set r pair.1 pair.2).trans (ih _)

theorem refreshLoad_background (st : Station) (path : String) (series : List SeriesId) :
    Background st (st.refreshLoad path series).1 := by
  unfold refreshLoad
  split
  · exact .refl st
  · exact .refl st
  · split
    · exact .refl st
    · exact setAll_background st series _

theorem pollScript_background (context : Context) (st : Station) (rest : List Action) :
    Background st (st.pollScript context rest).1 := by
  fun_induction pollScript context st rest with
  | case1 st => exact .refl st
  | case2 st => exact .refl st
  | case3 st => exact .refl st
  | case4 st action rest _ _ mid failure failed =>
    have first := perform_background context st action
    rw [failed] at first
    exact first
  | case5 st action rest _ _ mid done ih =>
    have first := perform_background context st action
    rw [done] at first
    exact first.trans ih

theorem poll_background (token : TokenId) (st : Station) (body : Body) :
    Background st (st.poll token body).1 := by
  cases body with
  | script run rest => exact pollScript_background _ st rest
  | failed text => exact .refl st
  | openFile path series => exact .refl st
  | readFile path series =>
    have refreshed := refreshLoad_background st path series
    simp only [poll]
    split
    next failed => rw [failed] at refreshed; exact refreshed
    next done => rw [done] at refreshed; exact refreshed

end Station

end GaugeExporter
