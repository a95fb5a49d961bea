import GaugeExporter.Exporter.Export
import GaugeExporter.Proofs.Collection.Decoding
import GaugeExporter.Proofs.Collection.Endings
import GaugeExporter.Proofs.Collection.Moments
import GaugeExporter.Proofs.Exporter.Publication

/-!
# Exports to a file

An `Export` is one call of the exporter: its collection takes any course, from
any station and with any cancellation, and what comes of it is published.  The
buffer goes from call to call (`Exports`).  A call leaves its own document at the
target or does not change the target (`Export.Made.leaves`), so after any number
of calls the target holds the last document that was published
(`Exports.target_eq`).  A call on a station with nothing around it is
`Station.exportInto`; there the station, the buffer and the result are those of
its collection (`Call.gives`), and so the calls of a list leave the document of
the last one that gave a size (`exportEach_target`).
-/

namespace GaugeExporter

open Files (Fault Tree temporary)

/-- A call of the exporter. -/
structure Export where
  -- The station and the buffer at the moment of the call.
  start : Station
  buffer : Bytes
  token : TokenId
  -- The token is cancelled from outside once the journal reads like this.
  outside : Array Event → Bool := fun _ => false
  -- Where the course of the collection has led.
  moment : Request.Moment
  -- What the call gives, if its collection comes to an end.
  result : Option (Except ExportError Nat)

/-- What a target holds after these documents were published: the last of them, or
else what it held before. -/
def held (before : Except Fault Bytes) (documents : List Bytes) : Except Fault Bytes :=
  match documents.getLast? with
  | some document => .ok document
  | none => before

theorem held_cons (before : Except Fault Bytes) (document : Bytes) (later : List Bytes) :
    held before (document :: later) = held (.ok document) later := by
  simp only [held, List.getLast?_cons]
  cases later.getLast? <;> rfl

namespace Export

def request (call : Export) : Request :=
  call.start.exportRequest call.token call.buffer call.outside

/-- The document of the call's collection. -/
def document (call : Export) : Bytes :=
  call.moment.station.registry.document call.request.timestamp

/-- The collection of the call has taken its course. -/
def Collected (call : Export) : Prop :=
  ∃ turns, call.request.Course (call.request.first call.start) turns call.moment

/-- A collection that succeeds leaves its document and nothing else in the
buffer. -/
theorem Collected.out {call : Export} (collected : call.Collected)
    (ended : call.moment.phase = .ended (.ok ())) : call.moment.out = call.document := by
  obtain ⟨turns, course⟩ := collected
  exact Request.output_of_ok course ended

/-- The document, if the call succeeds. -/
def published? (call : Export) : Option Bytes :=
  match call.result with
  | some (.ok _) => some call.document
  | _ => none

variable {σ : Type} {storage : Storage (StateM σ)} {read : σ → String → Except Fault Bytes}
  {target : String} {call : Export} {s s' : σ}

/-- What follows the collection of a call. -/
def conclusion (storage : Storage (StateM σ)) (target : String) (call : Export) :
    StateM σ (Option (Except ExportError Nat)) :=
  match call.moment.phase with
  | .ended outcome => some <$> conclude storage (.file target) call.moment.out outcome
  | _ => return none

/-- The call is made: its collection takes a course, and the exporter concludes. -/
structure Made (storage : Storage (StateM σ)) (target : String) (call : Export) (s s' : σ) :
    Prop where
  collected : call.Collected
  concluded : (call.conclusion storage target).run s = (call.result, s')

/-- The ways of a call. -/
inductive Ends (storage : Storage (StateM σ)) (target : String) (call : Export) (s : σ) :
    Option (Except ExportError Nat) → σ → Prop
  | never (unfinished : call.moment.phase.IsOpen) : Ends storage target call s none s
  | failed {cause : CollectError} (ended : call.moment.phase = .ended (.error cause)) :
      Ends storage target call s (some (.error (.collection cause))) s
  | unpublished {cause : PublishError} {s' : σ} (ended : call.moment.phase = .ended (.ok ()))
      (publishes : Publishes storage target call.document s (.error cause) s') :
      Ends storage target call s (some (.error (.publication cause))) s'
  | published {s' : σ} (ended : call.moment.phase = .ended (.ok ()))
      (publishes : Publishes storage target call.document s (.ok ()) s') :
      Ends storage target call s (some (.ok call.document.length)) s'

theorem run_conclude_ok (document : Bytes) {result : Except PublishError Unit}
    (published : (publish storage target document).run s = (result, s')) :
    (conclude storage (.file target) document (.ok ())).run s
      = ((result.mapError .publication).map fun _ => document.length, s') := by
  simp only [conclude, Sink.publish, run_bind_eq, published]
  cases result <;> rfl

theorem Made.ends (made : call.Made storage target s s') :
    call.Ends storage target s call.result s' := by
  obtain ⟨collected, concluded⟩ := made
  rw [conclusion] at concluded
  split at concluded
  next outcome ended =>
    cases outcome with
    | error cause =>
      obtain ⟨result, rfl⟩ := Prod.mk.inj concluded
      rw [← result]
      exact .failed ended
    | ok u =>
      -- the buffer that is published holds the document and nothing from before
      have out := collected.out ended
      have publishes := publishes storage target call.document s
      generalize published : (publish storage target call.document).run s = gives at publishes
      obtain ⟨result, later⟩ := gives
      have run := run_conclude_ok call.document published
      rw [← out] at run
      change (some ((conclude storage (.file target) call.moment.out (.ok ())).run s).1,
        ((conclude storage (.file target) call.moment.out (.ok ())).run s).2) = _ at concluded
      rw [run, out] at concluded
      obtain ⟨given, rfl⟩ := Prod.mk.inj concluded
      rw [← given]
      cases result with
      | error cause => exact .unpublished ended publishes
      | ok u => exact .published ended publishes
  next unended =>
    obtain ⟨result, rfl⟩ := Prod.mk.inj concluded
    rw [← result]
    exact .never (call.moment.phase.open_or_ended.resolve_right fun ⟨_, ended⟩ => unended _ ended)

theorem documentEnd_suffix (call : Export) : Exposition.documentEnd <:+ call.document :=
  List.suffix_append _ _

/-- What a call leaves behind. -/
structure Leaves (storage : Storage (StateM σ)) (read : σ → String → Except Fault Bytes)
    (target : String) (call : Export) (s s' : σ) : Prop where
  -- A collection that succeeds is published; the call gives what came of that.
  attempted : call.moment.phase = .ended (.ok ()) → ∃ result,
    Publishes storage target call.document s result s' ∧
      call.result = some ((result.mapError .publication).map fun _ => call.document.length)
  succeeded : ∀ size, call.result = some (.ok size) → call.moment.phase = .ended (.ok ()) ∧
    call.document.length = size ∧ Exposition.documentEnd <:+ call.document
  published : ∀ size, call.result = some (.ok size) →
    read s' target = .ok call.document ∧ read s' (temporary target) = .error .notFound
  error : ∀ cause, call.result = some (.error cause) → read s' target = read s target
  -- A collection that fails, or goes on for ever, touches no file.
  failed : ∀ cause, call.moment.phase = .ended (.error cause) →
    call.result = some (.error (.collection cause)) ∧ s' = s
  never : call.result = none → s' = s
  unmoved : storage.Removes read target → ∀ path fault,
    call.result = some (.error (.publication (.move path fault))) →
      read s' (temporary target) = .error .notFound

/-- The contract of a single call. -/
theorem Made.leaves (made : call.Made storage target s s')
    (reliable : storage.Reliable read target) : call.Leaves storage read target s s' := by
  have ends := made.ends
  generalize given : call.result = result at ends
  cases ends with
  | never unfinished =>
    have unended : ∀ outcome, call.moment.phase ≠ .ended outcome := fun outcome ended => by
      rw [ended] at unfinished
      exact unfinished
    exact {
      attempted := fun ended => absurd ended (unended _)
      succeeded := by simp [given]
      published := by simp [given]
      error := by simp [given]
      failed := fun cause ended => absurd ended (unended _)
      never := fun _ => rfl
      unmoved := by simp [given] }
  | failed ended =>
    exact {
      attempted := fun ended' => by cases ended.symm.trans ended'
      succeeded := by simp [given]
      published := by simp [given]
      error := fun _ _ => rfl
      failed := fun cause ended' => by cases ended.symm.trans ended'; exact ⟨given, rfl⟩
      never := fun _ => rfl
      unmoved := by simp [given] }
  | @unpublished cause _ ended publishes =>
    have published := publishes.published reliable
    exact {
      attempted := fun _ => ⟨_, publishes, given⟩
      succeeded := by simp [given]
      published := by simp [given]
      error := fun _ _ => published.undone cause rfl
      failed := fun cause ended' => by cases ended.symm.trans ended'
      never := by simp [given]
      unmoved := fun removes path fault same => by
        cases given.symm.trans same
        exact published.unmoved removes path fault rfl }
  | published ended publishes =>
    exact {
      attempted := fun _ => ⟨_, publishes, given⟩
      succeeded := fun size same => by
        cases given.symm.trans same
        exact ⟨ended, rfl, call.documentEnd_suffix⟩
      published := fun _ _ => (publishes.published reliable).done rfl
      error := by simp [given]
      failed := fun cause ended' => by cases ended.symm.trans ended'
      never := by simp [given]
      unmoved := by simp [given] }

/-! ## Calls one after another -/

/-- What the target holds after calls. -/
def heldAfter (before : Except Fault Bytes) (calls : List Export) : Except Fault Bytes :=
  held before (calls.filterMap published?)

theorem heldAfter_append (before : Except Fault Bytes) (calls : List Export) (call : Export) :
    heldAfter before (calls ++ [call])
      = match call.published? with
        | some document => .ok document
        | none => heldAfter before calls := by
  cases published : call.published? with
  | none => simp [heldAfter, held, published]
  | some document => simp [heldAfter, held, published]

theorem Leaves.held (leaves : call.Leaves storage read target s s') :
    read s' target = match call.published? with
      | some document => .ok document
      | none => read s target := by
  unfold published?
  cases given : call.result with
  | none => rw [leaves.never given]
  | some result =>
    cases result with
    | error cause => exact leaves.error cause given
    | ok size => exact (leaves.published size given).1

end Export

/-- Calls are made one after another, each with the buffer that the one before it
left.  Stations, tokens and callbacks may differ from call to call. -/
inductive Exports {σ : Type} (storage : Storage (StateM σ)) (target : String) (buffer : Bytes)
    (s : σ) : List Export → Bytes → σ → Prop
  | none : Exports storage target buffer s [] buffer s
  | next {calls : List Export} {call : Export} {s' s'' : σ}
      (exports : Exports storage target buffer s calls call.buffer s')
      (made : call.Made storage target s' s'') :
      Exports storage target buffer s (calls ++ [call]) call.moment.out s''

section Exports

variable {σ : Type} {storage : Storage (StateM σ)} {read : σ → String → Except Fault Bytes}
  {target : String}

/-- The run lemma of the exporter: after any number of calls the target holds the
last published document. -/
theorem Exports.target_eq {buffer buffer' : Bytes} {s s' : σ} {calls : List Export}
    (exports : Exports storage target buffer s calls buffer' s')
    (reliable : storage.Reliable read target) :
    read s' target = Export.heldAfter (read s target) calls := by
  induction exports with
  | none => rfl
  | next exports made ih => rw [(made.leaves reliable).held, ih, Export.heldAfter_append]

/-! ## Calls on a station -/

/-- What a call of `Station.exportInto` asks for. -/
structure Call where
  start : Station
  token : TokenId
  -- The token is cancelled from outside once the journal reads like this.
  outside : Array Event → Bool := fun _ => false

namespace Call

/-- The collection of a call: into an empty buffer, at the time of its station. -/
def collected (call : Call) : Station × Result :=
  call.start.collect
    { timestamp := call.start.timestamp, token := call.token, outside := call.outside }

/-- The document of the registry that the collection leaves. -/
def document (call : Call) : Bytes :=
  call.collected.1.registry.document call.start.timestamp

/-- What a call gives: the station and the buffer that its collection leaves, and a
result as soon as the collection comes to an end. -/
structure Gives (storage : Storage (StateM σ)) (read : σ → String → Except Fault Bytes)
    (target : String) (call : Call) (s : σ)
    (given : Station × Bytes × Option (Except ExportError Nat)) (s' : σ) : Prop where
  station : given.1 = call.collected.1
  buffer : given.2.1 = call.collected.2.out
  never : call.collected.2.outcome = none → given.2.2 = none ∧ s' = s
  -- A collection that fails touches no file.
  failed : ∀ cause, call.collected.2.outcome = some (.error cause) →
    given.2.2 = some (.error (.collection cause)) ∧ s' = s
  -- A collection that succeeds is published, and the call gives what came of that.
  attempted : call.collected.2.outcome = some (.ok ()) → given.2.1 = call.document ∧ ∃ result,
    Publishes storage target call.document s result s' ∧
      given.2.2 = some ((result.mapError .publication).map fun _ => call.document.length)
  succeeded : ∀ size, given.2.2 = some (.ok size) →
    call.collected.2.outcome = some (.ok ()) ∧ call.document.length = size ∧
      Exposition.documentEnd <:+ call.document ∧ read s' target = .ok call.document ∧
      read s' (temporary target) = .error .notFound
  error : ∀ cause, given.2.2 = some (.error cause) → read s' target = read s target
  unmoved : storage.Removes read target → ∀ path fault,
    given.2.2 = some (.error (.publication (.move path fault))) →
      read s' (temporary target) = .error .notFound

/-- The call as one among others, with the course of its collection. -/
def made (call : Call) (buffer : Bytes) (moment : Request.Moment)
    (result : Option (Except ExportError Nat)) : Export :=
  { call with buffer, moment, result }

/-- The moment is where the collection of the call has led. -/
structure Leads (call : Call) (moment : Request.Moment) : Prop where
  registry : call.collected.1.registry = moment.station.registry
  out : call.collected.2.out = moment.out
  ended : ∀ outcome, call.collected.2.outcome = some outcome ↔ moment.phase = .ended outcome

/-- The exporter collects, and concludes once the collection has ended. -/
theorem run_exportInto (storage : Storage (StateM σ)) (target : String) (call : Call)
    (buffer : Bytes) (s : σ) :
    (call.start.exportInto storage (.file target) call.token buffer call.outside).run s
      = match call.collected.2.outcome with
        | none => ((call.collected.1, call.collected.2.out, none), s)
        | some outcome =>
          let concluded := (conclude storage (.file target) call.collected.2.out outcome).run s
          ((call.collected.1, call.collected.2.out, some concluded.1), concluded.2) := by
  -- whatever the buffer holds, it is cleared
  have same : call.start.collect (call.start.exportRequest call.token buffer call.outside)
      = call.collected := rfl
  rw [Station.exportInto, same]
  generalize call.collected = collected
  obtain ⟨st, out, outcome?⟩ := collected
  cases outcome? <;> rfl

theorem collected_leads (call : Call) : ∃ turns moment,
    (call.made [] moment none).request.Course
      ((call.made [] moment none).request.first call.start) turns moment ∧ call.Leads moment := by
  obtain ⟨turns, moment, course, gave⟩ := call.start.collect_eq
    { timestamp := call.start.timestamp, token := call.token, outside := call.outside }
  refine ⟨turns, moment, course, ?_⟩
  constructor
  · rw [collected, gave, Request.registry_noted]
  · rw [collected, gave]
  · intro outcome
    rw [collected, gave]
    exact Task.outcome?_eq_some

/-- A call on a station is a call of the exporter. -/
theorem exportInto_made (storage : Storage (StateM σ)) (target : String) (call : Call)
    (buffer : Bytes) (s : σ) :
    let run := (call.start.exportInto storage (.file target) call.token buffer call.outside).run s
    ∃ moment, call.Leads moment ∧
      (call.made buffer moment run.1.2.2).Made storage target s run.2 := by
  obtain ⟨turns, moment, course, leads⟩ := call.collected_leads
  rw [run_exportInto]
  refine ⟨moment, leads, ⟨turns, course⟩, ?_⟩
  rw [leads.out]
  cases ended : call.collected.2.outcome with
  | none =>
    rw [Export.conclusion]
    split
    next outcome phase => exact nomatch ended.symm.trans ((leads.ended outcome).mpr phase)
    next => rfl
  | some outcome =>
    simp only [Export.conclusion, made, (leads.ended outcome).mp ended]
    rfl

theorem document_made {call : Call} {moment : Request.Moment} (leads : call.Leads moment)
    (buffer : Bytes) (result : Option (Except ExportError Nat)) :
    (call.made buffer moment result).document = call.document := by
  rw [document, leads.registry]
  rfl

theorem left_of_exportInto (storage : Storage (StateM σ)) (target : String) (call : Call)
    (buffer : Bytes) (s : σ) :
    let run := (call.start.exportInto storage (.file target) call.token buffer call.outside).run s
    run.1.1 = call.collected.1 ∧ run.1.2.1 = call.collected.2.out ∧
      (call.collected.2.outcome = none → run.1.2.2 = none) := by
  rw [run_exportInto]
  cases call.collected.2.outcome with
  | none => exact ⟨rfl, rfl, fun _ => rfl⟩
  | some outcome => exact ⟨rfl, rfl, nofun⟩

/-- The contract of a call on a station. -/
theorem gives (reliable : storage.Reliable read target) (call : Call) (buffer : Bytes) (s : σ) :
    let run := (call.start.exportInto storage (.file target) call.token buffer call.outside).run s
    call.Gives storage read target s run.1 run.2 := by
  intro run
  obtain ⟨station, left, missing⟩ := left_of_exportInto storage target call buffer s
  obtain ⟨moment, leads, made⟩ := exportInto_made storage target call buffer s
  have leaves := made.leaves reliable
  have document := call.document_made leads buffer run.1.2.2
  exact {
    station
    buffer := left
    never := fun none => ⟨missing none, leaves.never (missing none)⟩
    failed := fun cause failed => leaves.failed cause ((leads.ended _).mp failed)
    attempted := fun succeeded => by
      have ended := (leads.ended _).mp succeeded
      refine ⟨left.trans (leads.out.trans ?_), document ▸ leaves.attempted ended⟩
      exact (made.collected.out ended).trans document
    succeeded := fun size given => by
      obtain ⟨ended, length, suffix⟩ := leaves.succeeded size given
      obtain ⟨there, gone⟩ := leaves.published size given
      rw [document] at length suffix there
      exact ⟨(leads.ended _).mpr ended, length, suffix, there, gone⟩
    error := leaves.error
    unmoved := leaves.unmoved }

end Call

/-- Calls one after another, each with the buffer that the one before it left. -/
def exportEach {m : Type → Type} [Monad m] (storage : Storage m) (target : String) :
    Bytes → List Call → m (List (Option (Except ExportError Nat)))
  | _, [] => return []
  | buffer, call :: rest => do
    let (_, left, result) ←
      call.start.exportInto storage (.file target) call.token buffer call.outside
    return result :: (← exportEach storage target left rest)

/-- The documents of the calls that gave a size. -/
def documents : List Call → List (Option (Except ExportError Nat)) → List Bytes
  | call :: calls, some (.ok _) :: results => call.document :: documents calls results
  | _ :: calls, _ :: results => documents calls results
  | _, _ => []

/-- A call replaces what the target holds by its document, or keeps it. -/
theorem Call.Gives.held {call : Call} {s s' : σ}
    {given : Station × Bytes × Option (Except ExportError Nat)}
    (gives : call.Gives storage read target s given s') (calls : List Call)
    (results : List (Option (Except ExportError Nat))) :
    held (read s target) (documents (call :: calls) (given.2.2 :: results))
      = held (read s' target) (documents calls results) := by
  cases result : given.2.2 with
  | none =>
    have same : s' = s := by
      cases outcome : call.collected.2.outcome with
      | none => exact (gives.never outcome).2
      | some outcome' =>
        cases outcome' with
        | error cause => exact (gives.failed cause outcome).2
        | ok u =>
          obtain ⟨-, _, -, gave⟩ := gives.attempted outcome
          cases result.symm.trans gave
    rw [same]
    rfl
  | some result' =>
    cases result' with
    | error cause =>
      rw [gives.error cause result]
      rfl
    | ok size =>
      obtain ⟨-, -, -, there, -⟩ := gives.succeeded size result
      rw [there]
      exact held_cons _ _ _

/-- The run lemma of calls on stations. -/
theorem exportEach_target (reliable : storage.Reliable read target) (buffer : Bytes)
    (calls : List Call) (s : σ) :
    let run := (exportEach storage target buffer calls).run s
    run.1.length = calls.length ∧
      read run.2 target = held (read s target) (documents calls run.1) := by
  induction calls generalizing buffer s with
  | nil => exact ⟨rfl, rfl⟩
  | cons call rest ih =>
    have gives := call.gives reliable buffer s
    rw [exportEach, run_bind_eq]
    generalize (call.start.exportInto storage (.file target) call.token buffer call.outside).run s
      = run at gives ⊢
    obtain ⟨⟨after, left, result⟩, s'⟩ := run
    obtain ⟨length, there⟩ := ih left s'
    exact ⟨congrArg (· + 1) length, there.trans (gives.held rest _).symm⟩

/-- A target that can be relied on holds its first content or a document that was
published last, whatever the stations of the calls and whatever fails: a call
that succeeds leaves the whole document of its own collection and no temporary
file, a call that fails leaves the target as it was.  So it is for calls on
stations with nothing around them, and for calls with other parties in between. -/
theorem exports_keep_documents (reliable : storage.Reliable read target) :
    (∀ (call : Call) (buffer : Bytes) (s : σ),
      let run :=
        (call.start.exportInto storage (.file target) call.token buffer call.outside).run s
      call.Gives storage read target s run.1 run.2 ∧
        ∃ moment, call.Leads moment ∧
          (call.made buffer moment run.1.2.2).Made storage target s run.2) ∧
    (∀ (buffer : Bytes) (calls : List Call) (s : σ),
      let run := (exportEach storage target buffer calls).run s
      run.1.length = calls.length ∧
        read run.2 target = held (read s target) (documents calls run.1)) ∧
    (∀ (call : Export) (s s' : σ),
      call.Made storage target s s' → call.Leaves storage read target s s') ∧
    ∀ (buffer buffer' : Bytes) (s s' : σ) (calls : List Export),
      Exports storage target buffer s calls buffer' s' →
        read s' target = Export.heldAfter (read s target) calls :=
  ⟨fun call buffer s =>
      ⟨call.gives reliable buffer s, call.exportInto_made storage target buffer s⟩,
    exportEach_target reliable, fun _ _ _ made => made.leaves reliable,
    fun _ _ _ _ _ exports => exports.target_eq reliable⟩

end Exports

/-- A station whose callback sets the only series, and fails in its second run. -/
def flagging : Station :=
  { registry :=
      { metrics := #[⟨"load", none, [0]⟩], series := #[⟨0, [], none, .nan⟩],
        syncCallbacks := [.script 0 [.set 0 (.ofInt 3), .fail "no" (some [1])]] }
    seriesNumbers := #[0], metricNumbers := #[0], runs := #[0] }

/-- A call that succeeds, and one that fails. -/
def firstCall : Call := { start := flagging, token := 0 }

def secondCall : Call := { start := { flagging with runs := #[1] }, token := 0 }

/-- Two targets: one with an older content, and a directory that is not empty. -/
def shelf : Tree :=
  ⟨[(["load.prom"], .file [80]), (["full"], .directory), (["full", "keep"], .file [80])]⟩

/-- A call whose collection takes a single turn. -/
theorem Call.collected_at_once (call : Call) (outcome : Outcome) {request : Request}
    (asks : request
      = { timestamp := call.start.timestamp, token := call.token, outside := call.outside })
    (calm : call.start.isCancelled call.token = false)
    (ended : (request.next true (request.first call.start)).phase = .ended outcome) :
    call.collected = (request.noted (request.next true (request.first call.start)),
      ⟨(request.next true (request.first call.start)).out, some outcome⟩) := by
  subst asks
  rw [Request.noted, ended]
  refine Station.collect_of_ended (Prod.ext ?_ (Prod.ext ?_ ?_))
  all_goals rw [calm]
  · rfl
  · rfl
  · exact ended

/-- The second call leaves the document of the first.  A document that cannot be moved
leaves no temporary file. -/
theorem failed_call_keeps_first :
    let run := (exportEach Tree.storage "/load.prom" [80] [firstCall, secondCall]).run shelf
    let unmoved := (exportEach Tree.storage "/full" [] [firstCall]).run shelf
    run.1 = [some (.ok 33), some (.error (.collection (.callback (.message "no"))))] ∧
      run.2.read "/load.prom" = .ok (Text.bytes "# TYPE load gauge\nload 3 0\n# EOF\n") ∧
      unmoved.1 = [some (.error (.publication (.move "/full" .isDirectory)))] ∧
      unmoved.2.read "/full.tmp" = .error .notFound := by
  intro run unmoved
  have first := firstCall.collected_at_once (.ok ()) rfl rfl rfl
  have second :=
    secondCall.collected_at_once (.error (.callback (.message "no"))) rfl rfl rfl
  have text : firstCall.document = Text.bytes "# TYPE load gauge\nload 3 0\n# EOF\n" := by
    rw [Call.document, first]
    decide +kernel
  have results :
      run.1 = [some (.ok 33), some (.error (.collection (.callback (.message "no"))))] := by
    simp only [run, exportEach, run_bind_eq, Call.run_exportInto, first, second]
    decide +kernel
  have result : unmoved.1 = [some (.error (.publication (.move "/full" .isDirectory)))] := by
    simp only [unmoved, exportEach, run_bind_eq, Call.run_exportInto, first]
    decide +kernel
  obtain ⟨-, keeps, -⟩ := exports_keep_documents (Tree.storage_reliable (.ok ()) "/load.prom")
  obtain ⟨gives, -⟩ := exports_keep_documents (Tree.storage_reliable (.ok ()) "/full")
  refine ⟨results, ?_, result, ?_⟩
  · rw [(keeps [80] [firstCall, secondCall] shelf).2, results, ← text]
    rfl
  · refine (gives firstCall [] shelf).1.unmoved (Tree.storage_removes _ _) "/full" .isDirectory ?_
    exact List.head_eq_of_cons_eq result

end GaugeExporter
