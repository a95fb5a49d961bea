import GaugeExporter.Proofs.Collection.Course
import GaugeExporter.Proofs.Exposition.Decoder

/-!
# What a successful collection tells

The output of a collection that succeeded is its buffer with a document behind
it, and the document can be read back: it tells the metrics with a finite value,
their finite series, and of each series the tags, the value and the timestamp.
On top of `Conduct`, which finds the document in the output, `output_decodes`
rests on `Registry.decode_document`.
-/

namespace GaugeExporter.Request

variable {request : Request} {moment : Moment}

/-- A collection succeeded, and its registry has valid names. -/
structure Succeeded (request : Request) (moment : Moment) : Prop where
  course : ∃ start turns, request.Course (request.first start) turns moment
  ended : moment.phase = .ended (.ok ())
  names : moment.station.registry.NamesValid

/-- What a collection leaves in its output when it succeeds. -/
theorem output_of_ok {start : Station} {turns : Nat}
    (course : request.Course (request.first start) turns moment)
    (ended : moment.phase = .ended (.ok ())) :
    moment.out = request.buffer ++ moment.station.registry.document request.timestamp := by
  obtain ⟨events, since, conduct⟩ := course.led
  obtain ⟨st, out, phase⟩ := moment
  simp only at ended conduct ⊢
  subst ended
  cases conduct with
  | called split prior nothing entered calling later standing =>
    cases standing with
    | written cut polling kinds completed calm wrote =>
      obtain ⟨-, -, text⟩ | ⟨stopped, -⟩ := wrote.outcome
      · exact text
      · cases stopped

/-- The document of a successful collection can be read back, and every other
successful collection with the same document shows the same. -/
theorem output_decodes (succeeded : request.Succeeded moment) :
    ∃ document, moment.out = request.buffer ++ document ∧
      Exposition.decode document = some (moment.station.registry.emitted request.timestamp) ∧
      ∀ (other : Request) (later : Moment), other.Succeeded later →
        later.out = other.buffer ++ document →
          later.station.registry.emitted other.timestamp
            = moment.station.registry.emitted request.timestamp := by
  obtain ⟨⟨start, turns, course⟩, ended, names⟩ := succeeded
  have decodes := Registry.decode_document names request.timestamp
  refine ⟨_, output_of_ok course ended, decodes, ?_⟩
  intro other later ⟨⟨start', turns', course'⟩, ended', names'⟩ same
  rw [output_of_ok course' ended', List.append_cancel_left_eq] at same
  have decodes' := Registry.decode_document names' other.timestamp
  rw [same, decodes] at decodes'
  exact (Option.some.inj decodes').symm

/-- A tag whose value looks like the rest of a line and a line behind it. -/
def deceptiveTag : Tag := ⟨"host", "a\"\x7d 1 2\n\\"⟩

/-- A station with a series of that tag. -/
def deceptive : Station :=
  { registry :=
      { metrics := #[⟨"load", none, [0]⟩]
        series := #[⟨0, [deceptiveTag], none, ⟨0x4035800000000000⟩⟩] } }

/-- A request for a document of that station. -/
def glance : Request := { timestamp := 1700000000000, token := 0 }

theorem deceptive_decodes :
    Exposition.decode (glance.next true (glance.first deceptive)).out
      = some [⟨"load", [⟨[deceptiveTag], ⟨0x4035800000000000⟩, 1700000000000⟩]⟩] := by
  have asked : glance.Course (glance.first deceptive) 0 (glance.first deceptive) := .rest
  have names : deceptive.registry.NamesValid := ⟨by decide, by decide⟩
  have succeeded : glance.Succeeded (glance.next true (glance.first deceptive)) :=
    ⟨⟨deceptive, 1, asked.turn trivial true⟩, rfl, names⟩
  obtain ⟨document, output, decodes, -⟩ := output_decodes succeeded
  rw [output]
  exact decodes

end GaugeExporter.Request
