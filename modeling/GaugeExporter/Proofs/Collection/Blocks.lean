import GaugeExporter.Proofs.Collection.Alike

/-!
# Blocks and the pooled buffer

The values of a large metric go through a buffer that is kept from metric to
metric and from scrape to scrape, those of a small one do not.  Both ways give
what `Registry.encodePlainly` says of the snapshot, so what is written does not
depend on what the buffer held: for one metric, for the metrics of a scrape one
after another (`write_withPool`), and for a whole scrape with its callbacks.
The non-trivial ingredient is `encodeBlock_snapshot`: values are found again by
their positions, and there are as many of them as series, so no value is left
over and none is missing.
-/

namespace GaugeExporter

open Binary (Double)

namespace Station

/-- The station with other content in its pooled buffer. -/
def withPool (st : Station) (pool : List Double) : Station := { st with pool }

variable (st : Station) (pool : List Double)

@[simp] theorem registry_withPool : (st.withPool pool).registry = st.registry := rfl

@[simp] theorem isCancelled_withPool (token : TokenId) :
    (st.withPool pool).isCancelled token = st.isCancelled token := rfl

theorem record_withPool (event : Event) :
    (st.withPool pool).record event = (st.record event).withPool pool := rfl

theorem cancel_withPool (token : TokenId) :
    (st.withPool pool).cancel token = (st.cancel token).withPool pool := by
  rw [cancel, cancel, isCancelled_withPool]
  split
  · rfl
  · rfl

end Station

namespace Request

variable (request : Request)

/-! ## Metrics one after another -/

theorem mark_withPool (st : Station) (pool : List Double) (event : Event) :
    request.mark (st.withPool pool) event = (request.mark st event).withPool pool := by
  have journal : ((st.record event).withPool pool).journal = (st.record event).journal := rfl
  simp only [mark, Station.record_withPool, journal]
  split
  · exact Station.cancel_withPool _ _ _
  · rfl

/-- The metrics are written the same, whatever the pooled buffer held. -/
theorem write_withPool (metrics : List MetricId) (st : Station) (out : Bytes)
    (pool : List Double) :
    ∃ pool', request.write (st.withPool pool) out metrics
      = ((request.write st out metrics).1.withPool pool', (request.write st out metrics).2) := by
  induction metrics generalizing st out pool with
  | nil => exact ⟨pool, rfl⟩
  | cons m rest ih =>
    obtain ⟨left, written⟩ := request.write_cons st out m rest
    obtain ⟨left', written'⟩ := request.write_cons (st.withPool pool) out m rest
    rw [written, written', Station.isCancelled_withPool]
    split
    · exact ⟨pool, rfl⟩
    · simp only [mark_withPool, Station.registry_withPool]
      generalize request.mark st (.began request.number m) = mid
      exact ih (mid.withPool left) (out ++ mid.registry.blockAt request.timestamp m) left'

theorem finish_withPool (st : Station) (out : Bytes) (pool : List Double) :
    (request.finish (st.withPool pool) out).2 = (request.finish st out).2 := by
  simp only [finish, Station.isCancelled_withPool, mark_withPool, Station.registry_withPool]
  split
  · rfl
  · obtain ⟨pool', written⟩ := request.write_withPool
      (List.range (request.mark st (.prepared request.number)).registry.metricCount)
      (request.mark st (.prepared request.number)) out pool
    simp only [written]

/-! ## Scrapes -/

theorem Alike.withPool (st : Station) (pool : List Double) :
    request.Alike (st.withPool pool) st :=
  ⟨⟨rfl, rfl, rfl, rfl, rfl, rfl, rfl, rfl⟩, rfl, rfl⟩

/-- A scrape gives the same, whatever scrapes before it left in the buffer. -/
theorem collect_withPool (told : request.Told) (st : Station) (pool : List Double) :
    ((st.withPool pool).collect request).2 = (st.collect request).2 :=
  (collect_agree told (.withPool request st pool)).1

end Request

namespace Registry

/-- With a buffer of their own and through the pooled buffer, the values of a
metric give the plain block, each with the tags of its own series. A metric
takes the one way or the other, and neither it nor a scrape gives anything else
because of what the pooled buffer held before. -/
theorem blocks_written_plainly (r : Registry) (metric : Metric) (timestamp : Int) (out : Bytes)
    (pool : List Double) :
    (∀ values : List Double, values.length = metric.live.length →
      r.encodeBlock metric timestamp out values
          = r.encodePlainly metric timestamp out values ∧
        r.encodeBlock metric timestamp out (refill pool values)
          = r.encodePlainly metric timestamp out values) ∧
    r.writeBlock metric timestamp out pool
      = ((r.encodePlainly metric timestamp out (metric.live.map r.value)).1,
        (r.encodePlainly metric timestamp out (metric.live.map r.value)).2,
        if metric.live.length ≤ inlineLimit then pool else metric.live.map r.value) ∧
    metric.finiteSamples (metric.live.map r.value)
      = (r.finiteSeries metric).map (fun s => (s, r.value s)) ∧
    ∀ (request : Request) (st : Station),
      (∀ metrics, (request.write (st.withPool pool) out metrics).2
        = (request.write st out metrics).2) ∧
      (request.finish (st.withPool pool) out).2 = (request.finish st out).2 ∧
      (request.Told → ((st.withPool pool).collect request).2 = (st.collect request).2) := by
  refine ⟨fun values each => ?ways, ?written, r.finiteSamples_current metric,
    fun request st => ⟨fun metrics => ?metrics, request.finish_withPool st out pool,
      fun told => request.collect_withPool told st pool⟩⟩
  case ways =>
    have plain := r.encodeBlock_snapshot metric timestamp out each
    exact ⟨plain, by rw [refill_eq, plain]⟩
  case written => rw [encodePlainly_current, writeBlock_pooled]
  case metrics =>
    obtain ⟨pool', written⟩ := request.write_withPool metrics st out pool
    rw [written]

/-- A metric with more series than go without the pooled buffer. -/
def crowd : Metric := ⟨"ping_rtt_ms", none, List.range 33⟩

/-- A registry in which every series of this metric has its number as a tag. -/
def crowded : Registry where
  metrics := #[crowd]
  series := (Array.range 33).map fun i => ⟨0, [Tag.of "target" (.integer (i : Nat))], none, .nan⟩

/-- A snapshot in which only the last series has a finite value. -/
def lastOnly : List Double := List.replicate 32 .nan ++ [.ofInt 94]

/-- Behind values that an earlier metric left in the buffer, the one finite value
gives the line of the last series. -/
theorem crowded_written_plainly :
    crowded.encodeBlock crowd 1 [] (refill [.ofInt 1, .ofInt 2] lastOnly)
      = (Exposition.typeHeader "ping_rtt_ms"
          ++ Exposition.sampleLine 1 "ping_rtt_ms" (.ofInt 94) [Tag.of "target" (.integer 32)],
        1) ∧
    (Station.collect { registry := crowded, pool := [.ofInt 1] } { timestamp := 1, token := 0 }).2
      = (Station.collect { registry := crowded } { timestamp := 1, token := 0 }).2 := by
  have each : lastOnly.length = crowd.live.length := by decide
  have samples : crowd.finiteSamples lastOnly = [(32, .ofInt 94)] := by decide
  have tags : crowded.tags 32 = [Tag.of "target" (.integer 32)] := by simp [Registry.tags, crowded]
  have plain := ((blocks_written_plainly crowded crowd 1 [] [.ofInt 1, .ofInt 2]).1 lastOnly each).2
  have scrape := ((blocks_written_plainly crowded crowd 1 [] [.ofInt 1]).2.2.2
    { timestamp := 1, token := 0 } { registry := crowded }).2.2 fun _ _ _ _ _ => rfl
  refine ⟨?_, scrape⟩
  rw [plain, encodePlainly, samples]
  simp only [List.nil_append, List.flatMap_cons, List.flatMap_nil, List.append_nil, lineOf, tags]
  rfl

end Registry

end GaugeExporter
