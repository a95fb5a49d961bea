import GaugeExporter.Collection.System
import GaugeExporter.Proofs.Collection.Course

/-!
# A collection alone on its station

A request that is served alone and ends in its first turn gives what this turn
gives (`serve_of_ended`).  Without callbacks every collection is of this kind.
It keeps the registry as it is and cancels no token but its own
(`collect_quiet`), and if nobody cancels that one it gives the document of the
registry (`collect_document`).
-/

namespace GaugeExporter

/-! ## Serving a single request -/

namespace System

/-- A round of a single task is a poll of it. -/
theorem round_single {sys : System} {task : Task} (only : sys.tasks = [task]) :
    sys.round = sys.poll 0 := by
  rw [round, pollAll, only]
  rfl

/-- When the only task has ended nothing moves any more. -/
theorem run_of_ended {sys : System} {task : Task} {outcome : Outcome} (only : sys.tasks = [task])
    (ended : task.phase = .ended outcome) : sys.run = sys := by
  have still : sys.round = sys := by
    rw [round_single only, poll, only, List.getElem?_cons_zero]
    simp only [ended]
  rw [run, still, if_neg]
  simp only [Distance.less]
  omega

end System

namespace Station

variable {request : Request} {st st' : Station} {out : Bytes} {outcome : Outcome}

theorem serve_of_ended
    (turn : request.turn (!st.isCancelled request.token) st request.buffer .waiting
      = (st', out, .ended outcome)) :
    st.serve [request] = (st'.record (.ended request.number request.timestamp),
      [⟨out, some outcome⟩]) := by
  obtain ⟨gate, asked⟩ : ∃ gate, (System.ofRequests st [request]).ask 0 request.task
      = (gate, !st.isCancelled request.token) := by
    cases token : st.isCancelled request.token with
    | true => exact ⟨{}, by simp [System.ask, Request.task, System.ofRequests, token]⟩
    | false =>
      exact ⟨⟨some 0, []⟩, by simp [System.ask, Request.task, System.ofRequests, token, Gate.enter]⟩
  have polled : (System.ofRequests st [request]).round
      = { station := st'.record (.ended request.number request.timestamp), gate := gate.leave 0,
          tasks := [⟨request, out, .ended outcome⟩] } := by
    rw [System.round_single rfl, System.poll]
    simp only [System.ofRequests, Request.task, List.map_cons, List.map_nil,
      List.getElem?_cons_zero] at asked ⊢
    rw [asked]
    simp only [turn, System.settle, List.set_cons_zero]
  have closer : (System.ofRequests st [request]).round.distance.less
      (System.ofRequests st [request]).distance := by
    rw [polled]
    exact .inl Nat.one_pos
  rw [serve, System.run, if_pos closer, polled, System.run_of_ended rfl rfl]
  rfl

/-- A collection that awaits its bodies in the first turn and ends in the
second. -/
theorem collect_of_awaiting {mid : Station} {out' : Bytes} {slots : List Slot}
    (calm : st.isCancelled request.token = false)
    (first : request.turn true st request.buffer .waiting = (mid, out, .awaiting slots))
    (second : request.turn true mid out (.awaiting slots) = (st', out', .ended outcome)) :
    st.collect request = (st'.record (.ended request.number request.timestamp),
      ⟨out', some outcome⟩) := by
  have entered : (System.ofRequests st [request]).round
      = { station := mid, gate := ⟨some 0, []⟩, tasks := [⟨request, out, .awaiting slots⟩] } := by
    rw [System.round_single rfl]
    simp [System.poll, System.ofRequests, Request.task, System.ask, calm, Gate.enter, first,
      System.settle]
  have ended : (System.ofRequests st [request]).round.round
      = { station := st'.record (.ended request.number request.timestamp),
          gate := Gate.leave ⟨some 0, []⟩ 0, tasks := [⟨request, out', .ended outcome⟩] } := by
    rw [entered, System.round_single rfl]
    simp [System.poll, System.ask, second, System.settle]
  have closer : (System.ofRequests st [request]).round.distance.less
      (System.ofRequests st [request]).distance := by
    rw [entered]
    exact .inr ⟨rfl, .inl Nat.one_pos⟩
  have closer' : (System.ofRequests st [request]).round.round.distance.less
      (System.ofRequests st [request]).round.distance := by
    rw [ended, entered]
    exact .inl Nat.one_pos
  rw [collect, serve, System.run, if_pos closer, System.run, if_pos closer', ended,
    System.run_of_ended rfl rfl]
  rfl

theorem collect_of_ended
    (turn : request.turn (!st.isCancelled request.token) st request.buffer .waiting
      = (st', out, .ended outcome)) :
    st.collect request = (st'.record (.ended request.number request.timestamp),
      ⟨out, some outcome⟩) := by
  rw [collect, serve_of_ended turn]

end Station

/-! ## Collections without callbacks -/

theorem Station.cancel_only (st : Station) (token : TokenId) :
    (st.cancel token).registry = st.registry ∧ (st.cancel token).issued = st.issued ∧
      ∀ other, (st.cancel token).isCancelled other = true →
        st.isCancelled other = true ∨ other = token := by
  unfold cancel
  split
  · exact ⟨rfl, rfl, fun _ => .inl⟩
  · refine ⟨rfl, rfl, fun other cancelled => ?_⟩
    simp only [isCancelled, record, List.contains_cons, Bool.or_eq_true, beq_iff_eq] at cancelled
    exact cancelled.symm

/-- The registry is the same, and no token was cancelled but that of the
request, and this one only if somebody cancels it while the collection runs. -/
structure Request.Quiet (request : Request) (st st' : Station) : Prop where
  registry : st'.registry = st.registry
  issued : st'.issued = st.issued
  cancelled : ∀ token, st'.isCancelled token = true → st.isCancelled token = true ∨
    token = request.token ∧ ∃ journal, request.outside journal = true

namespace Request

variable {request : Request}

theorem Quiet.refl (st : Station) : request.Quiet st st := ⟨rfl, rfl, fun _ => .inl⟩

theorem Quiet.trans {first second third : Station} (left : request.Quiet first second)
    (right : request.Quiet second third) : request.Quiet first third where
  registry := right.registry.trans left.registry
  issued := right.issued.trans left.issued
  cancelled token cancelled := by
    cases right.cancelled token cancelled with
    | inl before => exact left.cancelled token before
    | inr own => exact .inr own

theorem mark_quiet (st : Station) (event : Event) : request.Quiet st (request.mark st event) := by
  unfold mark
  simp only
  split
  next outside =>
    obtain ⟨registry, issued, cancelled⟩ := (st.record event).cancel_only request.token
    exact ⟨registry, issued, fun token now =>
      (cancelled token now).imp_right fun own => ⟨own, _, outside⟩⟩
  next => exact ⟨rfl, rfl, fun _ => .inl⟩

theorem write_quiet (metrics : List MetricId) (st : Station) (out : Bytes) :
    request.Quiet st (request.write st out metrics).1 := by
  induction metrics generalizing st out with
  | nil => exact .refl st
  | cons m rest ih =>
    rw [write]
    split
    · exact .refl st
    · have marked : request.Quiet st (request.mark st (.began request.number m)) := mark_quiet st _
      refine marked.trans (.trans ?_ (ih _ _))
      exact ⟨rfl, rfl, fun _ => .inl⟩

theorem finish_quiet (st : Station) (out : Bytes) : request.Quiet st (request.finish st out).1 := by
  unfold finish
  split
  · exact .refl st
  · exact (mark_quiet st _).trans (write_quiet _ _ _)

/-- Nobody cancels the token of the collection from outside. -/
def Undisturbed (request : Request) : Prop := ∀ journal, request.outside journal = false

theorem Quiet.calm {st st' : Station} (quiet : request.Quiet st st')
    (calm : st.isCancelled request.token = false) (undisturbed : request.Undisturbed) :
    st'.isCancelled request.token = false := by
  refine eq_false_of_ne_true fun cancelled => ?_
  obtain before | ⟨-, journal, outside⟩ := quiet.cancelled _ cancelled
  · rw [calm] at before
    cases before
  · rw [undisturbed journal] at outside
    cases outside

/-- Behind its callbacks a collection whose token nobody cancels writes the
document. -/
theorem finish_calm {st : Station} (calm : st.isCancelled request.token = false)
    (undisturbed : request.Undisturbed) (out : Bytes) :
    ∃ st', request.finish st out
      = (st', out ++ st.registry.document request.timestamp, .ended (.ok ())) := by
  obtain ⟨cancelled, -⟩ | ⟨-, written, events, outcome, st', out', gives, wrote⟩ :=
    request.finish_cases st out
  · rw [calm] at cancelled
    cases cancelled
  · have quiet : request.Quiet st (request.finish st out).1 := finish_quiet st out
    obtain ⟨rfl, -, rfl⟩ | ⟨-, -, cancelled, -⟩ := wrote.outcome
    · exact ⟨st', by rw [gives, wrote.registry]⟩
    · rw [gives] at quiet
      rw [quiet.calm calm undisturbed] at cancelled
      cases cancelled

theorem begin_of_no_callbacks {st : Station} (sync : st.registry.syncCallbacks = [])
    (async : st.registry.asyncCallbacks = []) (out : Bytes) :
    request.begin st out = request.finish (request.mark st (.entered request.number)) out := by
  have same := request.registry_mark st (.entered request.number)
  simp only [Request.begin, same, sync, runSyncFrom, async]

end Request

namespace Station

variable {request : Request} {st : Station}

/-- The first turn is the only one, and it is quiet. -/
theorem turn_of_no_callbacks (sync : st.registry.syncCallbacks = [])
    (async : st.registry.asyncCallbacks = []) :
    ∃ st' out outcome, request.turn (!st.isCancelled request.token) st request.buffer .waiting
        = (st', out, .ended outcome) ∧ request.Quiet st st' := by
  cases token : st.isCancelled request.token with
  | true =>
    exact ⟨st, request.buffer, .error .cancelled, by rw [Request.turn, if_pos token], .refl st⟩
  | false =>
    have turn : request.turn true st request.buffer .waiting
        = request.finish (request.mark st (.entered request.number)) request.buffer := by
      rw [Request.turn, if_neg (by simp [token]), if_pos rfl,
        Request.begin_of_no_callbacks sync async]
    have marked : request.Quiet st (request.mark st (.entered request.number)) :=
      Request.mark_quiet st _
    have finished := marked.trans
      (Request.finish_quiet (request.mark st (.entered request.number)) request.buffer)
    rw [Bool.not_false, turn]
    obtain ⟨cancelled, gives⟩ | ⟨_, _, _, outcome, st', out, gives, _⟩ :=
      request.finish_cases (request.mark st (.entered request.number)) request.buffer
    · rw [gives] at finished ⊢
      exact ⟨_, _, _, rfl, finished⟩
    · rw [gives] at finished ⊢
      exact ⟨_, _, _, rfl, finished⟩

/-- A collection without callbacks leaves the registry as it is. -/
theorem collect_quiet (sync : st.registry.syncCallbacks = [])
    (async : st.registry.asyncCallbacks = []) : request.Quiet st (st.collect request).1 := by
  obtain ⟨st', out, outcome, turn, quiet⟩ := @turn_of_no_callbacks request st sync async
  rw [collect_of_ended turn]
  exact quiet.trans ⟨rfl, rfl, fun _ => .inl⟩

/-- A collection without callbacks whose token nobody cancels gives the document
of the registry. -/
theorem collect_document (sync : st.registry.syncCallbacks = [])
    (async : st.registry.asyncCallbacks = []) (calm : st.isCancelled request.token = false)
    (undisturbed : request.Undisturbed) :
    (st.collect request).2
      = ⟨request.buffer ++ st.registry.document request.timestamp, some (.ok ())⟩ := by
  have marked : request.Quiet st (request.mark st (.entered request.number)) :=
    Request.mark_quiet st _
  obtain ⟨st', finished⟩ :=
    Request.finish_calm (marked.calm calm undisturbed) undisturbed request.buffer
  have turn : request.turn (!st.isCancelled request.token) st request.buffer .waiting
      = (st', request.buffer ++ st.registry.document request.timestamp, .ended (.ok ())) := by
    rw [calm, Bool.not_false, Request.turn, if_neg (by simp [calm]), if_pos rfl,
      Request.begin_of_no_callbacks sync async, finished, marked.registry]
  rw [collect_of_ended turn]

end Station

end GaugeExporter
