import GaugeExporter.Proofs.Collection.Phases

/-!
# The course of a collection

A collection takes turns, and between its turns other parties go on, cancel
tokens and register things (`Aside`).  `Course` allows every order of the two.
The invariant of a course is `Conduct`: it cuts what the journal gained into the
part before the gate, the synchronous phase, the calls and what came after
them, and says for each part which entries of the collection it holds.  One
round of polls keeps the last part (`Standing.await`), one turn keeps the whole
(`Led.turn`), and `Course.led` follows by induction over the course, as does that
the entries of the collection are those of its acts (`Course.performed`).
-/

namespace GaugeExporter

open Station (Since)

/-- The collection has not ended. -/
def Phase.IsOpen : Phase → Prop
  | .ended _ => False
  | _ => True

namespace Request

variable {request : Request}

/-! ## The document -/

/-- A collection got past its callbacks and wrote the blocks of the first
metrics, each begun before the token was cancelled: all of them and the closing
line, or fewer because the token had been cancelled by then. -/
structure Written (request : Request) (st : Station) (out : Bytes) (written : Nat)
    (st' : Station) (out' : Bytes) (outcome : Outcome) (events : List Event) : Prop where
  since : Since st st' events
  bound : written ≤ st'.registry.metricCount
  registry : st'.registry = st.registry
  own : request.own events
    = .prepared request.number :: (List.range written).map (Event.began request.number)
  prepared : request.Heard st events (.prepared request.number)
  heard : ∀ m < written, request.Heard st events (.began request.number m)
  outcome : (outcome = .ok () ∧ written = st'.registry.metricCount ∧
      out' = out ++ st'.registry.document request.timestamp) ∨
    (outcome = .error .cancelled ∧ written < st'.registry.metricCount ∧
      st'.isCancelled request.token = true ∧
      out' = out ++ st'.registry.blocks request.timestamp written)

theorem finish_cases (st : Station) (out : Bytes) :
    (st.isCancelled request.token = true ∧
      request.finish st out = (st, out, .ended (.error .cancelled))) ∨
    (st.isCancelled request.token = false ∧
      ∃ written events outcome st' out',
        request.finish st out = (st', out', .ended outcome) ∧
        request.Written st out written st' out' outcome events) := by
  cases token : st.isCancelled request.token with
  | true => exact .inl ⟨rfl, by rw [finish, if_pos token]⟩
  | false =>
    refine .inr ⟨rfl, ?_⟩
    obtain ⟨tail, marked, noOther⟩ := request.mark_since st (.prepared request.number) rfl
    have sameRegistry := request.registry_mark st (.prepared request.number)
    have finished : request.finish st out
        = ((request.write (request.mark st (.prepared request.number)) out
            (List.range (request.mark st (.prepared request.number)).registry.metricCount)).1,
          (request.write (request.mark st (.prepared request.number)) out
            (List.range (request.mark st (.prepared request.number)).registry.metricCount)).2.1,
          .ended (request.write (request.mark st (.prepared request.number)) out
            (List.range
              (request.mark st (.prepared request.number)).registry.metricCount)).2.2) := by
      rw [finish, if_neg (by simp [token])]
    revert marked sameRegistry finished
    generalize request.mark st (.prepared request.number) = mid
    intro marked sameRegistry finished
    obtain ⟨written, events, since, -, wrote⟩ :=
      request.write_wrote (List.range mid.registry.metricCount) mid out
    have bound := wrote.bound
    have taken : (List.range mid.registry.metricCount).take written = List.range written := by
      rw [List.length_range] at bound
      rw [List.take_range, Nat.min_eq_left bound]
    refine ⟨written, .prepared request.number :: tail ++ events, _, _, _, finished, ?_⟩
    refine ⟨marked.trans since, ?_, wrote.registry.trans sameRegistry, ?_, ?_, ?_, ?_⟩
    · rwa [List.length_range, ← wrote.registry] at bound
    · rw [own_append, wrote.began, taken, request.own_entry rfl noOther]
      rfl
    · exact (heard_mark token _ tail rfl).append events
    · intro m below
      exact (wrote.heard m (by rw [taken]; exact List.mem_range.mpr below)).since marked
    · rcases wrote.outcome with ⟨ok, all, text⟩ | ⟨stopped, some, cancelled, text⟩
      · refine .inl ⟨ok, by rw [all, List.length_range, wrote.registry], ?_⟩
        rw [text, Registry.document, Registry.blocks, List.append_assoc, wrote.registry]
      · refine .inr ⟨stopped, ?_, cancelled, by rw [text, taken, Registry.blocks]⟩
        rwa [List.length_range, ← wrote.registry] at some

/-! ## Behind the calls -/

/-- The polls of so many bodies have brought them to these slots, and none has
failed. -/
structure Polls (request : Request) (bodies : Nat) (events : List Event) (slots : List Slot) :
    Prop where
  length : slots.length = bodies
  kinds : ∀ event ∈ request.own events, PollEvent request.number 0 bodies none event
  completed : ∀ i, slots[i]? = some .completed → .completed request.number i ∈ events

/-- Where a collection stands that has awaited the called bodies. -/
inductive Standing (request : Request) (bodies : Nat) (st : Station) (out : Bytes)
    (events : List Event) (st' : Station) (out' : Bytes) : Phase → Prop
  | awaiting {slots : List Slot} (polls : request.Polls bodies events slots)
      (calm : st.isCancelled request.token = false) (kept : out' = out) :
      Standing request bodies st out events st' out' (.awaiting slots)
  | cancelled (kinds : ∀ event ∈ request.own events, PollEvent request.number 0 bodies none event)
      (quiet : st.isCancelled request.token = true → request.own events = [])
      (cancelled : st'.isCancelled request.token = true) (kept : out' = out) :
      Standing request bodies st out events st' out' (.ended (.error .cancelled))
  | failed {cause : Failure}
      (kinds : ∀ event ∈ request.own events, PollEvent request.number 0 bodies (some cause) event)
      (failed : .failed request.number cause ∈ events)
      (calm : st.isCancelled request.token = false) (kept : out' = out) :
      Standing request bodies st out events st' out' (.ended (.error (.callback cause)))
  | written {before after : List Event} {mid : Station} {written : Nat} {outcome : Outcome}
      (split : events = before ++ after) (since : Since st mid before)
      (kinds : ∀ event ∈ request.own before, PollEvent request.number 0 bodies none event)
      (completed : ∀ i < bodies, .completed request.number i ∈ before)
      (calm : mid.isCancelled request.token = false)
      (wrote : request.Written mid out written st' out' outcome after) :
      Standing request bodies st out events st' out' (.ended outcome)

variable {bodies : Nat} {st mid mid' : Station} {out out' : Bytes} {events more : List Event}
  {slots slots' : List Slot}

namespace Polls

theorem init (length : slots.length = bodies) (open_ : ∀ slot ∈ slots, isCompleted slot = false) :
    request.Polls bodies [] slots where
  length := length
  kinds _ member := nomatch member
  completed _ completed := nomatch open_ _ (List.mem_of_getElem? completed)

theorem aside (polls : request.Polls bodies events slots) (foreign : request.own more = []) :
    request.Polls bodies (events ++ more) slots where
  length := polls.length
  kinds := by
    rw [own_append, foreign, List.append_nil]
    exact polls.kinds
  completed i completed := List.mem_append_left _ (polls.completed i completed)

theorem round (polls : request.Polls bodies events slots)
    (polled : request.Polled 0 slots slots' none (request.own more)) :
    request.Polls bodies (events ++ more) slots' where
  length := polled.length.trans polls.length
  kinds event member := by
    have kinds := polled.kinds
    rw [Nat.zero_add, polls.length] at kinds
    rw [own_append] at member
    exact (List.mem_append.mp member).elim (polls.kinds event) (kinds event)
  completed i completed := by
    cases polled.completed i completed with
    | inl old => exact List.mem_append_left _ (polls.completed i old)
    | inr new =>
      rw [Nat.zero_add] at new
      exact List.mem_append_right _ (request.mem_own.mp new).1

theorem everyone (polls : request.Polls bodies events slots)
    (all : slots.all isCompleted = true) : ∀ i < bodies, .completed request.number i ∈ events := by
  intro i below
  have inside : i < slots.length := polls.length ▸ below
  refine polls.completed i ?_
  have ended := List.all_eq_true.mp all slots[i] (List.getElem_mem inside)
  rw [List.getElem?_eq_getElem inside]
  cases slot : slots[i] with
  | awaited body => rw [slot] at ended; cases ended
  | completed => rfl

end Polls

namespace Standing

/-- What is not of the collection leaves an awaiting one as it is. -/
theorem aside (standing : request.Standing bodies st out events mid out' (.awaiting slots))
    (foreign : request.own more = []) :
    request.Standing bodies st out (events ++ more) mid' out' (.awaiting slots) := by
  cases standing with
  | awaiting polls calm kept => exact .awaiting (polls.aside foreign) calm kept

theorem finish (out : Bytes) (since : Since st mid events)
    (polls : request.Polls bodies events slots)
    (all : slots.all isCompleted = true) (calm : st.isCancelled request.token = false) :
    ∃ rest, Since mid (request.finish mid out).1 rest ∧
      request.Standing bodies st out (events ++ rest) (request.finish mid out).1
        (request.finish mid out).2.1 (request.finish mid out).2.2 := by
  obtain ⟨cancelled, gives⟩ | ⟨still, w, rest, outcome, st', out', gives, wrote⟩ :=
    request.finish_cases mid out
  · rw [gives]
    refine ⟨[], .refl mid, ?_⟩
    rw [List.append_nil]
    exact .cancelled polls.kinds (fun no => by rw [calm] at no; cases no) cancelled rfl
  · rw [gives]
    exact ⟨rest, wrote.since, .written rfl since polls.kinds (polls.everyone all) still wrote⟩

theorem await (out : Bytes) (since : Since st mid events)
    (polls : request.Polls bodies events slots)
    (quiet : st.isCancelled request.token = true → request.own events = []) :
    ∃ more, Since mid (request.await mid out slots).1 more ∧
      request.Standing bodies st out (events ++ more) (request.await mid out slots).1
        (request.await mid out slots).2.1 (request.await mid out slots).2.2 := by
  unfold Request.await
  split
  next cancelled =>
    refine ⟨[], .refl mid, ?_⟩
    rw [List.append_nil]
    exact .cancelled polls.kinds quiet cancelled rfl
  next still =>
    have calm := (since.calm (eq_false_of_ne_true still)).1
    obtain ⟨round, acts, polled⟩ := @pollFrom_acts request 0 mid slots [] rfl
    obtain ⟨more, since', rfl⟩ := acts.journaled.leaves
    split
    next mid' slots' cause failed =>
      rw [failed] at since' polled
      refine ⟨more, since', .failed ?_ ?_ calm rfl⟩
      · intro event member
        rw [own_append] at member
        cases List.mem_append.mp member with
        | inl old => exact (polls.kinds event old).of_none _
        | inr new =>
          have kinds := polled.kinds
          rw [Nat.zero_add, polls.length] at kinds
          exact kinds event new
      · exact List.mem_append_right _ (request.mem_own.mp (polled.failed cause rfl)).1
    next mid' slots' went =>
      rw [went] at since' polled
      have polls' := polls.round polled
      split
      next all =>
        obtain ⟨rest, since'', standing⟩ := finish out (since.trans since') polls' all calm
        refine ⟨more ++ rest, since'.trans since'', ?_⟩
        rw [← List.append_assoc]
        exact standing
      next => exact ⟨more, since', .awaiting polls' calm rfl⟩

end Standing

/-! ## Behind the gate -/

/-- The synchronous phase: the collection enters and runs the callbacks that are
registered at this moment, up to the first that fails. -/
structure Entered (request : Request) (gate st : Station) (ran : Nat) (failure : Option Failure)
    (events : List Event) : Prop where
  since : Since gate st events
  heard : request.Heard gate events (.entered request.number)
  through : request.RanThrough 0 (request.mark gate (.entered request.number))
    gate.registry.syncCallbacks ran st failure
  own : request.own events = .entered request.number ::
    ((List.range ran).map (Event.ran request.number) ++
      (failure.map (Event.failed request.number)).toList)

/-- The asynchronous callbacks that are registered at a moment are called in
order. -/
structure Called (request : Request) (st st' : Station) (events : List Event) : Prop where
  since : Since st st' events
  station : st' = (request.callFrom 0 st st.registry.asyncCallbacks).1
  own : request.own events
    = (List.range st.registry.asyncCallbacks.length).map (Event.called request.number)

theorem await_nil (st : Station) (out : Bytes) :
    request.await st out [] = request.finish st out := by
  cases cancelled : st.isCancelled request.token with
  | true => rw [await, finish, if_pos cancelled, if_pos cancelled]
  | false => rw [await, if_neg (by simp [cancelled])]; rfl

theorem begin_cases {gate : Station} (calm : gate.isCancelled request.token = false)
    (out : Bytes) :
    (∃ ran cause events, request.Entered gate (request.begin gate out).1 ran (some cause) events ∧
      (request.begin gate out).2 = (out, .ended (.error (.callback cause)))) ∨
    (∃ ran mid called sync calls slots, request.Entered gate mid ran none sync ∧
      request.Called mid called calls ∧
      slots.length = mid.registry.asyncCallbacks.length ∧
      (∀ slot ∈ slots, isCompleted slot = false) ∧
      request.begin gate out = request.await called out slots) := by
  obtain ⟨tail, marked, noOther⟩ := request.mark_since gate (.entered request.number) rfl
  have heard := heard_mark calm (.entered request.number) tail rfl
  have same := request.registry_mark gate (.entered request.number)
  obtain ⟨ran, through, acts⟩ := @runSyncFrom_ranThrough request
    (request.mark gate (.entered request.number)) gate.registry.syncCallbacks []
    (by rw [same]; exact List.prefix_refl _) []
  rw [List.length_nil] at through acts
  obtain ⟨events, since, own⟩ := acts.journaled.leaves
  rw [← List.range_eq_range'] at own
  have entered : request.Entered gate _ ran _ (.entered request.number :: tail ++ events) := {
    since := marked.trans since
    heard := heard.append events
    through
    own := by
      rw [own_append, own, request.own_entry rfl noOther, List.singleton_append] }
  rw [Request.begin]
  simp only [same]
  split
  next st cause failed =>
    rw [failed] at entered
    exact .inl ⟨ran, cause, _, entered, rfl⟩
  next mid done =>
    rw [done] at entered
    refine .inr ?_
    split
    next none =>
      have nothing : request.Called mid mid [] := ⟨.refl mid, by rw [none]; rfl, by rw [none]; rfl⟩
      exact ⟨ran, mid, mid, _, [], [], entered, nothing, by rw [none]; rfl, by simp,
        (await_nil mid out).symm⟩
    next =>
      obtain ⟨calls, since', own'⟩ := (@callFrom_acts request mid [] mid.registry.asyncCallbacks []
        (List.prefix_refl _) rfl).journaled.leaves
      rw [List.length_nil, ← List.range_eq_range'] at own'
      obtain ⟨length, open_⟩ := request.callFrom_slots 0 mid mid.registry.asyncCallbacks
      exact ⟨ran, mid, _, _, calls, _, entered, ⟨since', rfl, own'⟩, length, open_, rfl⟩

/-! ## Turns -/

/-- How a collection got to where it stands. -/
inductive Conduct (request : Request) (start : Station) (events : List Event) (st : Station)
    (out : Bytes) : Phase → Prop
  | waiting (nothing : request.own events = []) (kept : out = request.buffer) :
      Conduct request start events st out .waiting
  | refused (nothing : request.own events = []) (cancelled : st.isCancelled request.token = true)
      (kept : out = request.buffer) :
      Conduct request start events st out (.ended (.error .cancelled))
  | stopped {gate : Station} {before after : List Event} {ran : Nat} {cause : Failure}
      (split : events = before ++ after) (since : Since start gate before)
      (nothing : request.own before = [])
      (entered : request.Entered gate st ran (some cause) after) (kept : out = request.buffer) :
      Conduct request start events st out (.ended (.error (.callback cause)))
  | called {gate mid called : Station} {before sync calls rest : List Event} {ran : Nat}
      {phase : Phase} (split : events = before ++ (sync ++ (calls ++ rest)))
      (since : Since start gate before) (nothing : request.own before = [])
      (entered : request.Entered gate mid ran none sync)
      (calling : request.Called mid called calls) (later : Since called st rest)
      (standing : request.Standing mid.registry.asyncCallbacks.length called request.buffer rest
        st out phase) :
      Conduct request start events st out phase

/-- A station, an output and where the collection stands. -/
structure Moment where
  station : Station
  out : Bytes
  phase : Phase

/-- The collection as it is asked for. -/
def first (request : Request) (start : Station) : Moment := ⟨start, request.buffer, .waiting⟩

/-- The moment after a turn. -/
def next (request : Request) (granted : Bool) (moment : Moment) : Moment where
  station := (request.turn granted moment.station moment.out moment.phase).1
  out := (request.turn granted moment.station moment.out moment.phase).2.1
  phase := (request.turn granted moment.station moment.out moment.phase).2.2

/-- A collection takes a number of turns, with or without the gate being granted,
and other parties go on in between. -/
inductive Course (request : Request) (from_ : Moment) : Nat → Moment → Prop
  | rest : Course request from_ 0 from_
  | aside {turns : Nat} {moment : Moment} {st : Station}
      (course : Course request from_ turns moment)
      (unfinished : moment.phase.IsOpen) (aside : request.Aside moment.station st) :
      Course request from_ turns { moment with station := st }
  | turn {turns : Nat} {moment : Moment} (course : Course request from_ turns moment)
      (unfinished : moment.phase.IsOpen) (granted : Bool) :
      Course request from_ (turns + 1) (request.next granted moment)

/-- The collection is where its conduct since a start has brought it. -/
def Led (request : Request) (start : Station) (moment : Moment) : Prop :=
  ∃ events, Since start moment.station events ∧
    request.Conduct start events moment.station moment.out moment.phase

namespace Led

variable {start : Station} {moment : Moment}

theorem aside {st : Station} (led : request.Led start moment)
    (unfinished : moment.phase.IsOpen) (aside : request.Aside moment.station st) :
    request.Led start { moment with station := st } := by
  obtain ⟨events, since, conduct⟩ := led
  obtain ⟨more, since', foreign⟩ := aside
  refine ⟨events ++ more, since.trans since', ?_⟩
  obtain ⟨station, out, phase⟩ := moment
  cases conduct with
  | waiting nothing kept => exact .waiting (by rw [own_append, nothing, foreign]; rfl) kept
  | refused => exact unfinished.elim
  | stopped => exact unfinished.elim
  | called split before nothing entered calling later standing =>
    cases phase with
    | waiting => cases standing
    | awaiting slots =>
      exact .called (by rw [split]; simp only [List.append_assoc]) before nothing entered calling
        (later.trans since') (standing.aside foreign)
    | ended outcome => exact unfinished.elim

theorem turn (led : request.Led start moment) (unfinished : moment.phase.IsOpen)
    (granted : Bool) : request.Led start (request.next granted moment) := by
  obtain ⟨events, since, conduct⟩ := led
  obtain ⟨station, out, phase⟩ := moment
  cases phase with
  | ended outcome => exact unfinished.elim
  | waiting =>
    cases conduct with
    | called _ _ _ _ _ _ standing => cases standing
    | waiting nothing kept =>
      simp only at kept since
      subst kept
      cases token : station.isCancelled request.token with
      | true =>
        rw [next, Request.turn, if_pos token]
        exact ⟨events, since, .refused nothing token rfl⟩
      | false =>
        cases granted with
        | false =>
          rw [next, Request.turn, if_neg (by simp [token]), if_neg (by simp)]
          exact ⟨events, since, .waiting nothing rfl⟩
        | true =>
          rw [next, Request.turn, if_neg (by simp [token]), if_pos rfl]
          rcases begin_cases token request.buffer with
            ⟨ran, cause, after, entered, gives⟩ |
            ⟨ran, mid, called, sync, calls, slots, entered, calling, length, open_, gives⟩
          · rw [show request.begin station request.buffer
              = ((request.begin station request.buffer).1, request.buffer,
                .ended (.error (.callback cause))) by rw [← gives]]
            exact ⟨events ++ after, since.trans entered.since,
              .stopped rfl since nothing entered rfl⟩
          · obtain ⟨more, since', standing⟩ := Standing.await request.buffer
              (Since.refl called) (.init length open_) fun _ => rfl
            rw [gives]
            exact ⟨events ++ (sync ++ (calls ++ more)),
              since.trans (entered.since.trans (calling.since.trans since')),
              .called rfl since nothing entered calling since' standing⟩
  | awaiting slots =>
    cases conduct with
    | called split before nothing entered calling later standing =>
      cases standing with
      | awaiting polls calm kept =>
        simp only at kept
        subst kept
        obtain ⟨more, since', standing⟩ := Standing.await request.buffer later polls
          fun no => by rw [calm] at no; cases no
        rw [next, Request.turn]
        exact ⟨events ++ more, since.trans since',
          .called (by rw [split]; simp only [List.append_assoc]) before nothing entered calling
            (later.trans since') standing⟩

end Led

/-- The run lemma of a collection: wherever its turns have brought it, its
conduct since the start accounts for it. -/
theorem Course.led {start : Station} {turns : Nat} {moment : Moment}
    (course : request.Course (request.first start) turns moment) : request.Led start moment := by
  induction course with
  | rest => exact ⟨[], .refl start, .waiting rfl rfl⟩
  | aside course unfinished aside ih => exact ih.aside unfinished aside
  | turn course unfinished granted ih => exact ih.turn unfinished granted

/-! ## The acts of a course -/

/-- What a collection entered since a start are the entries of its acts, one after another.
These, and the doings of others in between, have made the station what it is, and the bodies
that are awaited what they are. -/
def Performed (request : Request) (start : Station) (events : List Event) (moment : Moment) :
    Prop :=
  ∃ slots, request.Acts request.Aside ⟨start, []⟩ (request.own events) ⟨moment.station, slots⟩ ∧
    moment.phase.Awaits slots

theorem Course.acts {start : Station} {turns : Nat} {moment : Moment}
    (course : request.Course (request.first start) turns moment) :
    ∃ entries slots, request.Acts request.Aside ⟨start, []⟩ entries ⟨moment.station, slots⟩ ∧
      moment.phase.Awaits slots := by
  induction course with
  | rest => exact ⟨[], [], .none, rfl⟩
  | aside course unfinished aside ih =>
    obtain ⟨entries, slots, acts, awaits⟩ := ih
    exact ⟨entries, slots, acts.others aside, awaits⟩
  | @turn _ moment course unfinished granted ih =>
    obtain ⟨entries, slots, acts, awaits⟩ := ih
    obtain ⟨more, slots', turned, awaits'⟩ :=
      request.turn_goes moment.station moment.out slots granted awaits
    exact ⟨entries ++ more, slots', acts.trans turned.alone, awaits'⟩

theorem Course.performed {start : Station} {turns : Nat} {moment : Moment} {events : List Event}
    (course : request.Course (request.first start) turns moment)
    (since : Since start moment.station events) : request.Performed start events moment := by
  obtain ⟨entries, slots, acts, awaits⟩ := course.acts
  obtain ⟨all, since', own⟩ := acts.leaves
  obtain rfl := since.unique since'
  exact ⟨slots, own ▸ acts, awaits⟩

end Request

end GaugeExporter
