import GaugeExporter.Proofs.Collection.Endings
import GaugeExporter.Proofs.Exporter.Loop

/-!
# The shutdown of the export loop

Once its token is cancelled the loop can only wind down (`Loop.Fades`): a
collection that is under way, or that one last tick begins, is cut before it
does anything, and nothing is published but a document that was complete by
then.  Every cue that the loop heeds lowers its rank, so it stops soon.  Together
with what the invariant of the loop says about ticks and documents this is
`Loop.runs_until_cancelled`.
-/

namespace GaugeExporter

open Station (Since Background)

/-! ## Collections under a cancelled token -/

theorem Request.turn_cancelled (request : Request) (granted : Bool) {st : Station} (out : Bytes)
    {phase : Phase} (cancelled : st.isCancelled request.token = true) (unfinished : phase.IsOpen) :
    request.turn granted st out phase = (st, out, .ended (.error .cancelled)) := by
  cases phase with
  | waiting => rw [turn, if_pos cancelled]
  | awaiting slots => rw [turn, await, if_pos cancelled]
  | ended outcome => exact unfinished.elim

/-- The next turn of a task with a cancelled token is its last, and it does
nothing. -/
theorem System.poll_cancelled {sys : System} {index : Nat} {task : Task}
    (found : sys.tasks[index]? = some task) (unfinished : task.phase.IsOpen)
    (cancelled : sys.station.isCancelled task.request.token = true) :
    ∃ gate, sys.poll index
      = ⟨sys.station.record (.ended task.request.number task.request.timestamp), gate,
        sys.tasks.set index { task with phase := .ended (.error .cancelled) }⟩ := by
  cases phase : task.phase with
  | waiting => exact ⟨_, poll_refused found phase cancelled⟩
  | awaiting slots =>
    have turn : task.request.next true (task.moment sys.station)
        = ⟨sys.station, task.out, .ended (.error .cancelled)⟩ := by
      simp only [Request.next, Task.moment,
        task.request.turn_cancelled true task.out cancelled unfinished]
    exact ⟨_, (poll_resumed found phase).trans (advance_ended turn rfl)⟩
  | ended outcome =>
    rw [phase] at unfinished
    exact unfinished.elim

/-- Between two moments collections do nothing but end: none enters, calls or
polls a callback, or begins a metric. -/
def Hushed (st st' : Station) : Prop :=
  ∃ events, Since st st' events ∧ ∀ event ∈ events, ∀ number,
    event.collection? = some number → ∃ timestamp, event = .ended number timestamp

namespace Hushed

theorem of_background {st st' : Station} (background : Background st st') : Hushed st st' := by
  obtain ⟨events, since, none⟩ := background
  exact ⟨events, since, fun event member number mine => by simp [none event member] at mine⟩

theorem refl (st : Station) : Hushed st st := of_background (.refl st)

theorem trans {first second third : Station} (left : Hushed first second)
    (right : Hushed second third) : Hushed first third := by
  obtain ⟨before, since, ended⟩ := left
  obtain ⟨after, since', ended'⟩ := right
  refine ⟨before ++ after, since.trans since', fun event member => ?_⟩
  exact (List.mem_append.mp member).elim (ended event) (ended' event)

theorem record_ended (st : Station) (number : Nat) (timestamp : Int) :
    Hushed st (st.record (.ended number timestamp)) := by
  refine ⟨_, Station.record_since st (by simp), fun event member other mine => ?_⟩
  obtain rfl := List.mem_singleton.mp member
  obtain rfl := Option.some.inj mine
  exact ⟨timestamp, rfl⟩

end Hushed

namespace Loop

variable {loop next : Loop} {past : List Occurrence} {cue : Cue} {occurrence : Option Occurrence}

/-! ## Steps under a cancelled token -/

theorem Collects.cut {start : Station} {buffer : Bytes} {sys : System}
    (collects : loop.Collects start buffer sys) (cancelled : loop.isCancelled = true) :
    ∃ number timestamp out, loop.advance sys = { loop with
      station := loop.station.record (.ended number timestamp), buffer := out,
      activity := .publishing (.error .cancelled) } := by
  obtain ⟨task, tasks, request, unfinished⟩ := collects.task
  have token : loop.station.isCancelled task.request.token = true := by
    rw [request]
    exact cancelled
  have found : ({ sys with station := loop.station } : System).tasks[0]? = some task := by
    rw [tasks]
    rfl
  obtain ⟨gate, polled⟩ := System.poll_cancelled found unfinished token
  have last : sys.tasks.set 0 { task with phase := .ended (.error .cancelled) }
      = [{ task with phase := .ended (.error .cancelled) }] := by
    rw [tasks]
    rfl
  exact ⟨task.request.number, task.request.timestamp, task.out, advance_ended polled last rfl⟩

/-- What a step can do under a cancelled token. -/
inductive Fades (loop : Loop) (cue : Cue) : Option Occurrence → Loop → Prop
  | unmoved (ignored : loop.heeds cue = false) : Fades loop cue none loop
  | began (idle : loop.activity = .idle) :
      Fades loop cue (some (.ticked loop.station))
        { loop with activity := .collecting loop.collection }
  | noticed (idle : loop.activity = .idle) : Fades loop cue none { loop with activity := .stopped }
  | cut {sys : System} (number : Nat) (timestamp : Int) (out : Bytes)
      (collecting : loop.activity = .collecting sys) :
      Fades loop cue none { loop with
        station := loop.station.record (.ended number timestamp), buffer := out,
        activity := .publishing (.error .cancelled) }
  | failed {cause : CollectError} (publishing : loop.activity = .publishing (.error cause)) :
      Fades loop cue (some (.failed (.collection cause))) { loop with activity := .stopped }
  | unpublished {cause : PublishError} (files : Files.Tree)
      (publishing : loop.activity = .publishing (.ok ())) :
      Fades loop cue (some (.failed (.publication cause)))
        { loop with station := { loop.station with files }, activity := .stopped }
  | published (files : Files.Tree) (printed : Bytes)
      (publishing : loop.activity = .publishing (.ok ())) :
      Fades loop cue (some (.published loop.buffer))
        { loop with station := { loop.station with files }, activity := .idle, printed }

theorem settle_error (cancelled : loop.isCancelled = true) (cause : ExportError) :
    loop.settle (.error cause) = { loop with activity := .stopped } := by
  simp only [settle, cancelled, if_true]

theorem settle_ok (loop : Loop) (size : Nat) :
    ∃ printed, loop.settle (.ok size) = { loop with activity := .idle, printed } := by
  unfold settle
  split
  · exact ⟨_, rfl⟩
  · exact ⟨_, rfl⟩
  next failed => cases failed

/-- Publishing a document changes nothing but files. -/
theorem conclude_ok (station : Station) (sink : Sink) (document : Bytes)
    (outlet : Except Files.Fault Unit) :
    ∃ (result : Except PublishError Unit) (files : Files.Tree),
      station.conclude sink document (.ok ()) outlet =
        ({ station with files }, (result.mapError .publication).map fun _ => document.length) := by
  cases sink with
  | standardOutput => exact ⟨outlet.mapError .print, station.files, by cases outlet <;> rfl⟩
  | file path =>
    obtain ⟨result, -, gives⟩ := conclude_file station path document outlet
    exact ⟨result, _, Prod.ext rfl gives⟩

theorem Stands.fades (stands : loop.Stands past) (cancelled : loop.isCancelled = true)
    (cue : Cue) : loop.Fades cue (loop.occurs cue) (loop.step cue) := by
  have steps := loop.steps_step cue
  generalize loop.occurs cue = occurrence, loop.step cue = next at steps ⊢
  cases steps with
  | unmoved ignored => exact .unmoved ignored
  | began idle => exact .began idle
  | noticed idle _ => exact .noticed idle
  | @advanced sys collecting =>
    rw [Stands, collecting] at stands
    obtain ⟨earlier, start, buffer, -, collects⟩ := stands
    obtain ⟨number, timestamp, out, gives⟩ := collects.cut cancelled
    rw [gives]
    exact .cut number timestamp out collecting
  | @concluded outcome publishing =>
    cases outcome with
    | error cause =>
      have stops : loop.conclude (.error cause) = { loop with activity := .stopped } :=
        settle_error cancelled (.collection cause)
      rw [stops]
      exact .failed publishing
    | ok u =>
      obtain ⟨result, files, gives⟩ := conclude_ok loop.station loop.sink loop.buffer loop.outlet
      rw [conclude, gives]
      cases result with
      | error cause =>
        have stops := @settle_error { loop with station := { loop.station with files } }
          cancelled (.publication cause)
        simp only [Except.mapError, Except.map, stops]
        exact .unpublished files publishing
      | ok u =>
        obtain ⟨printed, goes⟩ := settle_ok { loop with station := { loop.station with files } }
          loop.buffer.length
        simp only [Except.mapError, Except.map, goes]
        exact .published files printed publishing
  | shutdown =>
    have same : loop.station.cancel loop.token = loop.station := if_pos cancelled
    rw [same]
    exact .unmoved (by cases activity : loop.activity <;> simp [heeds, activity])

/-! ## Winding down -/

/-- What may still occur under a cancelled token, by what the loop is doing: at
most the publication of a buffer that is complete, and at most one tick, whose
export fails as cancelled. -/
inductive Winds (buffer : Bytes) : Activity → List Occurrence → Prop
  | nothing {activity : Activity} : Winds buffer activity []
  | failed {cause : CollectError} :
      Winds buffer (.publishing (.error cause)) [.failed (.collection cause)]
  | cut {sys : System} : Winds buffer (.collecting sys) [.failed (.collection .cancelled)]
  | ticked {start : Station} : Winds buffer .idle [.ticked start]
  | tickedInVain {start : Station} :
      Winds buffer .idle [.ticked start, .failed (.collection .cancelled)]
  | unpublished {cause : PublishError} :
      Winds buffer (.publishing (.ok ())) [.failed (.publication cause)]
  | published {future : List Occurrence} (idle : Winds buffer .idle future) :
      Winds buffer (.publishing (.ok ())) (.published buffer :: future)

namespace Fades

variable (fades : loop.Fades cue occurrence next)
include fades

theorem winds {future : List Occurrence} (later : Winds next.buffer next.activity future) :
    Winds loop.buffer loop.activity (occurrence.toList ++ future) := by
  cases fades with
  | unmoved ignored => exact later
  | began idle =>
    rw [idle]
    cases later with
    | nothing => exact .ticked
    | cut => exact .tickedInVain
  | noticed idle =>
    -- a loop that has stopped tells nothing more
    cases later with
    | nothing => exact .nothing
  | cut number timestamp out collecting =>
    rw [collecting]
    cases later with
    | nothing => exact .nothing
    | failed => exact .cut
  | failed publishing =>
    rw [publishing]
    cases later with
    | nothing => exact .failed
  | unpublished files publishing =>
    rw [publishing]
    cases later with
    | nothing => exact .unpublished
  | published files printed publishing =>
    rw [publishing]
    exact .published later

theorem hushed : Hushed loop.station next.station := by
  cases fades with
  | unmoved | began | noticed | failed => exact .refl _
  | cut number timestamp out collecting => exact .record_ended _ number timestamp
  | unpublished | published => exact .of_background (.of_same rfl rfl rfl)

theorem cancelled (cancelled : loop.isCancelled = true) : next.isCancelled = true := by
  cases fades <;> exact cancelled

end Fades

/-! ## The end -/

/-- How far the loop is from its end. -/
def rank (loop : Loop) : Nat :=
  match loop.activity with
  | .stopped => 0
  | .publishing (.error _) => 1
  | .collecting _ => 2
  | .idle => 3
  | .publishing (.ok _) => 4

theorem rank_le (loop : Loop) : loop.rank ≤ 4 := by
  unfold rank
  split <;> decide

theorem Fades.rank (fades : loop.Fades cue occurrence next) :
    next.rank + (loop.heeds cue).toNat ≤ loop.rank := by
  have one := Bool.toNat_le (loop.heeds cue)
  cases fades with
  | unmoved ignored => simp [ignored]
  | began idle | noticed idle => simp only [Loop.rank, idle]; omega
  | cut number timestamp out collecting => simp only [Loop.rank, collecting]; omega
  | failed publishing | unpublished files publishing | published files printed publishing =>
    simp only [Loop.rank, publishing]; omega

def minds (loop : Loop) : Move → Bool
  | .cue cue => loop.heeds cue
  | .deed _ | .outlet _ => false

/-- How many cues of a run make the loop do something. -/
def heeded (loop : Loop) : List Move → Nat
  | [] => 0
  | first :: rest => (loop.minds first).toNat + (loop.move first).heeded rest

/-- What a move preserves under a cancelled token. -/
structure Subsides (loop : Loop) (move : Move) : Prop where
  winds : ∀ future, Winds (loop.move move).buffer (loop.move move).activity future →
    Winds loop.buffer loop.activity ((loop.tells move).toList ++ future)
  hushed : Hushed loop.station (loop.move move).station
  cancelled : (loop.move move).isCancelled = true
  rank : (loop.move move).rank + (loop.minds move).toNat ≤ loop.rank

theorem Stands.subsides (stands : loop.Stands past) (cancelled : loop.isCancelled = true)
    (move : Move) : loop.Subsides move := by
  cases move with
  | cue cue =>
    have fades := stands.fades cancelled cue
    exact ⟨fun _ => fades.winds, fades.hushed, fades.cancelled cancelled, fades.rank⟩
  | deed deed =>
    have background := deed.background loop.station
    refine ⟨fun _ later => later, .of_background background, ?_, Nat.le_refl _⟩
    obtain ⟨events, since, -⟩ := background
    exact (since.tokens loop.token).mpr (.inl cancelled)
  | outlet answer => exact ⟨fun _ later => later, .refl _, cancelled, Nat.le_refl _⟩

/-- The run lemma of the shutdown. -/
theorem Stands.winds (stands : loop.Stands past) (cancelled : loop.isCancelled = true)
    (moves : List Move) :
    Winds loop.buffer loop.activity (loop.history moves) ∧
      Hushed loop.station (loop.play moves).station ∧
      (loop.play moves).rank + loop.heeded moves ≤ loop.rank := by
  induction moves generalizing loop past with
  | nil => exact ⟨.nothing, .refl _, Nat.le_refl _⟩
  | cons first rest ih =>
    have subsides := stands.subsides cancelled first
    obtain ⟨winds, hushed, rank⟩ := ih (stands.move first) subsides.cancelled
    refine ⟨subsides.winds _ winds, subsides.hushed.trans hushed, ?_⟩
    have lower := subsides.rank
    rw [heeded, play_cons]
    omega

theorem stopped_of_rank (none : loop.rank = 0) : loop.activity = .stopped := by
  unfold rank at none
  split at none <;> simp_all

/-- Whatever ticks, turns, failures and deeds of others follow one another, and
whenever the token is cancelled: the loop stops under a cancelled token only,
publishes nothing but the complete document of its last tick, and shows nothing
else.  Once the token is cancelled no collection does anything any more, nothing
is published but a document that was complete by then, at most one tick is taken
in vain, and the loop stops after four cues that it heeds. -/
theorem runs_until_cancelled (station : Station) (sink : Sink) (outside : Array Event → Bool)
    (moves : List Move) :
    let loop := (launch station sink outside).play moves
    (loop.activity = .stopped → loop.isCancelled = true) ∧
    (∀ cue document, loop.occurs cue = some (.published document) → ∃ earlier call,
      (launch station sink outside).history moves = earlier ++ [.ticked call.start] ∧
        loop.Completed call ∧ document = call.document) ∧
    (∀ cue, (loop.step cue).shown = match loop.occurs cue with
      | some (.published document) => loop.shownWith document
      | _ => loop.shown) ∧
    (loop.isCancelled = true → ∀ later, Winds loop.buffer loop.activity (loop.history later) ∧
      Hushed loop.station (loop.play later).station ∧
      (4 ≤ loop.heeded later → (loop.play later).activity = .stopped)) := by
  intro loop
  have stands : loop.Stands ((launch station sink outside).history moves) :=
    stands_launch station sink outside moves
  refine ⟨stands.cancelled_of_stopped, fun _ _ => stands.published, loop.shown_step, ?_⟩
  intro cancelled later
  obtain ⟨winds, hushed, rank⟩ := stands.winds cancelled later
  have bound := loop.rank_le
  exact ⟨winds, hushed, fun enough => stopped_of_rank (by omega)⟩

/-- A station with two metrics and no series. -/
def twoMetrics : Station :=
  { registry := { metrics := #[⟨"first", none, []⟩, ⟨"second", none, []⟩] } }

/-- The token is cancelled between a collection and the publication of its
document.  One last tick is taken in vain. -/
theorem late_tick_in_vain :
    let loop := (launch twoMetrics .standardOutput fun _ => false).play
      [.cue .tick, .cue .poll, .cue .shutdown]
    let later : List Move := [.cue .poll, .cue .tick, .cue .poll, .cue .poll]
    loop.isCancelled = true ∧ Winds loop.buffer loop.activity (loop.history later) ∧
      (loop.play later).activity = .stopped := by
  obtain ⟨-, -, -, winding⟩ := runs_until_cancelled twoMetrics .standardOutput
    (fun _ => false) [.cue .tick, .cue .poll, .cue .shutdown]
  obtain ⟨winds, -, stops⟩ := winding rfl [.cue .poll, .cue .tick, .cue .poll, .cue .poll]
  exact ⟨rfl, winds, stops (by decide)⟩

end Loop

end GaugeExporter
