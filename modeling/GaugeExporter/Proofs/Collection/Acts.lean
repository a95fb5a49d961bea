import GaugeExporter.Proofs.Collection.Trace

/-!
# The acts of a collection

All that a collection does is one of a few acts (`Request.Act`).  It notes an entry and
runs the piece of callback code that the entry stands in front of; a failure, or the
completion of a body, is noted behind the code that gave it; and some entries stand alone.
`Request.Acts` are acts one after another, with what other parties do in between.  The loops
of a collection are walked once, to see that they consist of acts, and every invariant comes
from the acts: what they leave in the journal (`Acts.journaled`, `Acts.leaves`), and what all of
them keep (`Invariant.acts`).
-/

namespace GaugeExporter

open Station (Since Background)

namespace Request

variable (request : Request)

/-! ## Events of a collection -/

/-- The events that belong to the collection. -/
def own (events : List Event) : List Event :=
  events.filter fun event => event.collection? = some request.number

@[simp] theorem own_append (before after : List Event) :
    request.own (before ++ after) = request.own before ++ request.own after :=
  List.filter_append ..

theorem mem_own {events : List Event} {event : Event} :
    event ∈ request.own events ↔ event ∈ events ∧ event.collection? = some request.number := by
  rw [own, List.mem_filter, decide_eq_true_eq]

theorem mem_own_of {event : Event} (mine : event.collection? = some request.number)
    {events : List Event} : event ∈ request.own events ↔ event ∈ events := by
  rw [mem_own, and_iff_left mine]

theorem own_eq_nil {events : List Event}
    (none : ∀ event ∈ events, event.collection? ≠ some request.number) : request.own events = [] :=
  List.filter_eq_nil_iff.mpr fun event member => by simpa using none event member

theorem own_of_none {events : List Event} (none : ∀ event ∈ events, event.collection? = none) :
    request.own events = [] :=
  request.own_eq_nil fun event member => by simp [none event member]

/-- An entry of the collection with nothing of any collection behind it. -/
theorem own_entry {event : Event} (mine : event.collection? = some request.number)
    {tail : List Event} (none : ∀ other ∈ tail, other.collection? = none) :
    request.own (event :: tail) = [event] := by
  rw [own, List.filter_cons_of_pos (by simp [mine]), ← own, request.own_of_none none]

/-- Between two moments the collection did what these events of its own say. -/
def Leaves (st st' : Station) (events : List Event) : Prop :=
  ∃ all, Since st st' all ∧ request.own all = events

/-- Other parties go on; the collection does nothing. -/
def Aside (st st' : Station) : Prop :=
  ∃ events, Since st st' events ∧ request.own events = []

/-- Between two moments the collection did what these events of its own say, and no other
collection did anything. -/
def Journaled (st st' : Station) (events : List Event) : Prop :=
  ∃ all, Since st st' all ∧ request.own all = events ∧
    ∀ event ∈ all, event.collection? = none ∨ event.collection? = some request.number

variable {request}

namespace Leaves

theorem refl (st : Station) : request.Leaves st st [] := ⟨[], Since.refl st, rfl⟩

theorem trans {first second third : Station} {before after : List Event}
    (left : request.Leaves first second before) (right : request.Leaves second third after) :
    request.Leaves first third (before ++ after) := by
  obtain ⟨all, since, rfl⟩ := left
  obtain ⟨all', since', rfl⟩ := right
  exact ⟨all ++ all', since.trans since', request.own_append all all'⟩

theorem of_background {st st' : Station} (background : Background st st') :
    request.Leaves st st' [] := by
  obtain ⟨all, since, none⟩ := background
  exact ⟨all, since, request.own_of_none none⟩

end Leaves

namespace Journaled

variable {st st' : Station} {events : List Event}

theorem refl (st : Station) : request.Journaled st st [] :=
  ⟨[], Since.refl st, rfl, List.forall_mem_nil _⟩

theorem trans {first second third : Station} {before after : List Event}
    (left : request.Journaled first second before)
    (right : request.Journaled second third after) :
    request.Journaled first third (before ++ after) := by
  obtain ⟨all, since, rfl, lone⟩ := left
  obtain ⟨all', since', rfl, lone'⟩ := right
  exact ⟨all ++ all', since.trans since', request.own_append all all', fun event member =>
    (List.mem_append.mp member).elim (lone event) (lone' event)⟩

theorem background {mid : Station} (journaled : request.Journaled st mid events)
    (background : Background mid st') : request.Journaled st st' events := by
  obtain ⟨all, since, none⟩ := background
  have quiet : request.Journaled mid st' [] :=
    ⟨all, since, request.own_of_none none, fun event member => .inl (none event member)⟩
  simpa using journaled.trans quiet

theorem leaves (journaled : request.Journaled st st' events) :
    request.Leaves st st' events := by
  obtain ⟨all, since, own, -⟩ := journaled
  exact ⟨all, since, own⟩

/-- For a collection with another number nothing has happened. -/
theorem aside (journaled : request.Journaled st st' events) {other : Request}
    (differs : other.number ≠ request.number) : other.Aside st st' := by
  obtain ⟨all, since, -, lone⟩ := journaled
  refine ⟨all, since, other.own_eq_nil fun event member same => ?_⟩
  obtain none | mine := lone event member
  · rw [none] at same
    cases same
  · rw [mine] at same
    exact differs (Option.some.inj same).symm

end Journaled

/-! ## Marks -/

variable (request)

/-- Behind the entry comes the cancellation of the token at most. -/
theorem mark_since (st : Station) (event : Event) (noCancellation : event.collection?.isSome) :
    ∃ tail, Since st (request.mark st event) (event :: tail) ∧
      ∀ other ∈ tail, other.collection? = none := by
  have recorded : Since st (st.record event) [event] :=
    Station.record_since st (fun token same => by subst same; cases noCancellation)
  unfold mark
  simp only
  split
  · obtain ⟨tail, cancelled, none⟩ := Background.cancel (st.record event) request.token
    exact ⟨tail, recorded.trans cancelled, none⟩
  · exact ⟨[], recorded, List.forall_mem_nil _⟩

theorem registry_mark (st : Station) (event : Event) :
    (request.mark st event).registry = st.registry := by
  unfold mark Station.cancel
  simp only
  split
  · split <;> rfl
  · rfl

theorem mark_journaled (st : Station) {event : Event}
    (mine : event.collection? = some request.number) :
    request.Journaled st (request.mark st event) [event] := by
  obtain ⟨tail, since, none⟩ := request.mark_since st event (by rw [mine]; rfl)
  refine ⟨event :: tail, since, request.own_entry mine none, fun other member => ?_⟩
  obtain rfl | later := List.mem_cons.mp member
  · exact .inr mine
  · exact .inl (none other later)

end Request

/-! ## Acts -/

/-- A station, and the slots of the bodies that a collection awaits there. -/
structure Bench where
  station : Station
  slots : List Slot

/-- The slots after a turn of the body at a position. -/
def Station.Turn.placed (turn : Station.Turn) (i : Nat) (slots : List Slot) : List Slot :=
  match turn with
  | .suspended rest => slots.set i (.awaited rest)
  | .completed => slots.set i .completed
  | .failed _ => slots

/-- The slots are those that a collection awaits in the phase. -/
def Phase.Awaits (slots : List Slot) : Phase → Prop
  | .waiting => slots = []
  | .awaiting awaited => awaited = slots
  | .ended _ => True

/-- The bodies that are awaited in the slots are all of a kind. -/
def AllAwaited (kind : Body → Prop) (slots : List Slot) : Prop :=
  ∀ body, .awaited body ∈ slots → kind body

namespace AllAwaited

variable {kind kind' : Body → Prop} {slots : List Slot}

theorem imp (wider : ∀ body, kind body → kind' body) (all : AllAwaited kind slots) :
    AllAwaited kind' slots := fun body member => wider body (all body member)

theorem concat (all : AllAwaited kind slots) {body : Body} (new : kind body) :
    AllAwaited kind (slots ++ [.awaited body]) := by
  intro other member
  rcases List.mem_append.mp member with old | same
  · exact all other old
  · cases List.mem_singleton.mp same
    exact new

/-- A turn of a body leaves the other bodies as they are. -/
theorem placed (all : AllAwaited kind slots) {turn : Station.Turn}
    (suspended : ∀ rest, turn = .suspended rest → kind rest) (i : Nat) :
    AllAwaited kind (turn.placed i slots) := by
  intro other member
  cases turn with
  | failed failure => exact all other member
  | completed =>
    rcases List.mem_or_eq_of_mem_set member with old | same
    · exact all other old
    · cases same
  | suspended rest =>
    rcases List.mem_or_eq_of_mem_set member with old | same
    · exact all other old
    · cases same
      exact suspended _ rfl

end AllAwaited

/-- The bodies that are awaited in the phase are all of a kind. -/
def Phase.All (kind : Body → Prop) : Phase → Prop
  | .awaiting slots => AllAwaited kind slots
  | _ => True

theorem Phase.All.awaits {kind : Body → Prop} {phase : Phase} (all : phase.All kind) :
    ∃ slots, phase.Awaits slots ∧ AllAwaited kind slots := by
  cases phase with
  | waiting => exact ⟨[], rfl, nofun⟩
  | awaiting slots => exact ⟨slots, rfl, all⟩
  | ended outcome => exact ⟨[], trivial, nofun⟩

theorem Phase.Awaits.all {kind : Body → Prop} {slots : List Slot} {phase : Phase}
    (awaits : phase.Awaits slots) (kinds : AllAwaited kind slots) : phase.All kind := by
  cases phase with
  | waiting => trivial
  | awaiting awaited => cases awaits; exact kinds
  | ended outcome => trivial

theorem Phase.exists_awaits (phase : Phase) : ∃ slots, phase.Awaits slots := by
  cases phase with
  | waiting => exact ⟨[], rfl⟩
  | awaiting slots => exact ⟨slots, rfl⟩
  | ended outcome => exact ⟨[], trivial⟩

namespace Request

/-- One act of a collection: what it enters, and what becomes of the station and of the
bodies that it awaits. -/
inductive Act (request : Request) : Bench → List Event → Bench → Prop
  | entered {st : Station} {slots : List Slot} :
      Act request ⟨st, slots⟩ [.entered request.number]
        ⟨request.mark st (.entered request.number), slots⟩
  -- a synchronous callback, which may fail
  | ran {st st' : Station} {slots : List Slot} {i : Nat} {callback : SyncCallback}
      (registered : st.registry.syncCallbacks[i]? = some callback)
      (gave : (request.mark st (.ran request.number i)).runSync request.token callback
        = (st', none)) :
      Act request ⟨st, slots⟩ [.ran request.number i] ⟨st', slots⟩
  | broke {st st' : Station} {slots : List Slot} {i : Nat} {callback : SyncCallback}
      {failure : Failure} (registered : st.registry.syncCallbacks[i]? = some callback)
      (gave : (request.mark st (.ran request.number i)).runSync request.token callback
        = (st', some failure)) :
      Act request ⟨st, slots⟩ [.ran request.number i, .failed request.number failure]
        ⟨request.mark st' (.failed request.number failure), slots⟩
  | called {st st' : Station} {slots : List Slot} {callback : AsyncCallback} {body : Body}
      (registered : st.registry.asyncCallbacks[slots.length]? = some callback)
      (gave : (request.mark st (.called request.number slots.length)).call request.token callback
        = (st', body)) :
      Act request ⟨st, slots⟩ [.called request.number slots.length]
        ⟨st', slots ++ [.awaited body]⟩
  -- a poll of an awaited body, which suspends again, completes or fails
  | suspended {st st' : Station} {slots : List Slot} {i : Nat} {body rest : Body}
      (awaited : slots[i]? = some (.awaited body))
      (gave : (request.mark st (.polled request.number i)).poll request.token body
        = (st', .suspended rest)) :
      Act request ⟨st, slots⟩ [.polled request.number i] ⟨st', slots.set i (.awaited rest)⟩
  | completed {st st' : Station} {slots : List Slot} {i : Nat} {body : Body}
      (awaited : slots[i]? = some (.awaited body))
      (gave : (request.mark st (.polled request.number i)).poll request.token body
        = (st', .completed)) :
      Act request ⟨st, slots⟩ [.polled request.number i, .completed request.number i]
        ⟨request.mark st' (.completed request.number i), slots.set i .completed⟩
  | crashed {st st' : Station} {slots : List Slot} {i : Nat} {body : Body} {failure : Failure}
      (awaited : slots[i]? = some (.awaited body))
      (gave : (request.mark st (.polled request.number i)).poll request.token body
        = (st', .failed failure)) :
      Act request ⟨st, slots⟩ [.polled request.number i, .failed request.number failure]
        ⟨request.mark st' (.failed request.number failure), slots⟩
  | prepared {st : Station} {slots : List Slot} :
      Act request ⟨st, slots⟩ [.prepared request.number]
        ⟨request.mark st (.prepared request.number), slots⟩
  | began {st : Station} {slots : List Slot} (m : MetricId) (pool : List Binary.Double) :
      Act request ⟨st, slots⟩ [.began request.number m]
        ⟨{ request.mark st (.began request.number m) with pool }, slots⟩

/-- Acts of a collection one after another, with what others do in between. -/
inductive Acts (request : Request) (others : Station → Station → Prop) (start : Bench) :
    List Event → Bench → Prop
  | none : Acts request others start [] start
  | act {events more : List Event} {mid last : Bench}
      (before : Acts request others start events mid) (act : request.Act mid more last) :
      Acts request others start (events ++ more) last
  | others {events : List Event} {mid : Bench} {st : Station}
      (before : Acts request others start events mid) (aside : others mid.station st) :
      Acts request others start events { mid with station := st }

/-- There is nobody else. -/
def Nobody (_ _ : Station) : Prop := False

variable {request : Request} {others others' : Station → Station → Prop} {start mid last : Bench}
  {events more : List Event}

theorem Act.acts (act : request.Act start events last) : request.Acts others start events last :=
  Acts.none.act act

namespace Acts

theorem trans (left : request.Acts others start events mid)
    (right : request.Acts others mid more last) :
    request.Acts others start (events ++ more) last := by
  induction right with
  | none => rwa [List.append_nil]
  | act _ act ih =>
    rw [← List.append_assoc]
    exact ih.act act
  | others _ aside ih => exact ih.others aside

theorem mono (wider : ∀ st st', others st st' → others' st st')
    (acts : request.Acts others start events last) : request.Acts others' start events last := by
  induction acts with
  | none => exact .none
  | act _ act ih => exact ih.act act
  | others _ aside ih => exact ih.others (wider _ _ aside)

theorem alone (acts : request.Acts Nobody start events last) :
    request.Acts others start events last :=
  acts.mono fun _ _ => False.elim

end Acts

/-! ## What acts leave in the journal -/

section Journal

variable {st st' : Station}

/-- An entry with callback code behind it. -/
theorem journaled_code {α : Type} {event : Event} (mine : event.collection? = some request.number)
    {result : α} {code : Station × α} (gave : code = (st', result))
    (background : Background (request.mark st event) code.1) :
    request.Journaled st st' [event] := by
  rw [gave] at background
  exact (request.mark_journaled st mine).background background

theorem Act.journaled (act : request.Act start events last) :
    request.Journaled start.station last.station events := by
  cases act with
  | entered => exact request.mark_journaled _ rfl
  | ran _ gave => exact journaled_code rfl gave (Station.runSync_background ..)
  | broke _ gave =>
    exact (journaled_code rfl gave (Station.runSync_background ..)).trans
      (request.mark_journaled _ rfl)
  | called _ gave => exact journaled_code rfl gave (Station.call_background ..)
  | suspended _ gave => exact journaled_code rfl gave (Station.poll_background ..)
  | completed _ gave =>
    exact (journaled_code rfl gave (Station.poll_background ..)).trans
      (request.mark_journaled _ rfl)
  | crashed _ gave =>
    exact (journaled_code rfl gave (Station.poll_background ..)).trans
      (request.mark_journaled _ rfl)
  | prepared => exact request.mark_journaled _ rfl
  | began => exact (request.mark_journaled _ rfl).background (.of_same rfl rfl rfl)

theorem Acts.journaled (acts : request.Acts Nobody start events last) :
    request.Journaled start.station last.station events := by
  induction acts with
  | none => exact .refl _
  | act _ act ih => exact ih.trans act.journaled
  | others _ nobody => exact nobody.elim

/-- Whatever others do meanwhile, the events of the acts are those of the collection. -/
theorem Acts.leaves (acts : request.Acts request.Aside start events last) :
    request.Leaves start.station last.station events := by
  induction acts with
  | none => exact .refl _
  | act _ act ih => exact ih.trans act.journaled.leaves
  | others _ aside ih => simpa using ih.trans aside

end Journal

/-! ## What acts keep -/

/-- What entries, the pool and every piece of callback code keep. -/
structure Invariant (request : Request) (holds : Bench → Prop) : Prop where
  mark {st : Station} {slots : List Slot} (before : holds ⟨st, slots⟩) (event : Event) :
    holds ⟨request.mark st event, slots⟩
  pool {st : Station} {slots : List Slot} (before : holds ⟨st, slots⟩)
    (pool : List Binary.Double) : holds ⟨{ st with pool }, slots⟩
  ran {st : Station} {slots : List Slot} (before : holds ⟨st, slots⟩) {callback : SyncCallback}
    (registered : callback ∈ st.registry.syncCallbacks) :
    holds ⟨(st.runSync request.token callback).1, slots⟩
  called {st : Station} {slots : List Slot} (before : holds ⟨st, slots⟩)
    {callback : AsyncCallback} (registered : callback ∈ st.registry.asyncCallbacks) :
    holds ⟨(st.call request.token callback).1,
      slots ++ [.awaited (st.call request.token callback).2]⟩
  polled {st : Station} {slots : List Slot} (before : holds ⟨st, slots⟩) {i : Nat} {body : Body}
    (awaited : slots[i]? = some (.awaited body)) :
    holds ⟨(st.poll request.token body).1, (st.poll request.token body).2.placed i slots⟩

namespace Invariant

variable {holds : Bench → Prop} (invariant : request.Invariant holds)
include invariant

theorem act (act : request.Act start events last) (before : holds start) : holds last := by
  have same (st : Station) (event : Event) := request.registry_mark st event
  cases act with
  | entered => exact invariant.mark before _
  | @ran st st' slots i callback registered gave =>
    rw [← same st (.ran request.number i)] at registered
    have after := invariant.ran (invariant.mark before _) (List.mem_of_getElem? registered)
    rwa [gave] at after
  | @broke st st' slots i callback failure registered gave =>
    rw [← same st (.ran request.number i)] at registered
    have after := invariant.ran (invariant.mark before _) (List.mem_of_getElem? registered)
    rw [gave] at after
    exact invariant.mark after _
  | @called st st' slots callback body registered gave =>
    rw [← same st (.called request.number slots.length)] at registered
    have after := invariant.called (invariant.mark before _) (List.mem_of_getElem? registered)
    rwa [gave] at after
  | @suspended st st' slots i body rest awaited gave =>
    have after := invariant.polled (invariant.mark before (.polled request.number i)) awaited
    rwa [gave] at after
  | @completed st st' slots i body awaited gave =>
    have after := invariant.polled (invariant.mark before (.polled request.number i)) awaited
    rw [gave] at after
    exact invariant.mark after _
  | @crashed st st' slots i body failure awaited gave =>
    have after := invariant.polled (invariant.mark before (.polled request.number i)) awaited
    rw [gave] at after
    exact invariant.mark after _
  | prepared => exact invariant.mark before _
  | began m pool => exact invariant.pool (invariant.mark before _) pool

theorem acts (acts : request.Acts Nobody start events last) (before : holds start) :
    holds last := by
  induction acts with
  | none => exact before
  | act _ act ih => exact invariant.act act ih
  | others _ nobody => exact nobody.elim

end Invariant

end Request

end GaugeExporter
