import GaugeExporter.Proofs.Collection.Concurrent
import GaugeExporter.Proofs.Collection.Endings
import GaugeExporter.Proofs.Exposition.Document

/-!
# Collections write text

Names, keys and values are text, and what a collection puts behind the content
of its output is text too, at every moment and however it ends, though values
are escaped byte by byte.  So the bytes of a document can be read back, and
`Station.render` never needs its replacement characters.  The non-trivial
ingredients are `escapeBytes_utf8`, by which escapes do not tear characters
apart, and `Conduct.accounted`, by which a collection is cut between whole
blocks only.
-/

namespace GaugeExporter

open Exposition (escape writeEscaped writeEscaped_eq escapeBytes_utf8)

/-! ## Encoded text -/

namespace Text

/-- The bytes are those of a text. -/
def Encoded (bs : Bytes) : Prop := ∃ text : String, bs = bytes text

theorem encoded_utf8 (text : List Char) : Encoded (utf8 text) :=
  ⟨String.ofList text, by rw [bytes, String.toList_ofList]⟩

theorem Encoded.nil : Encoded [] := encoded_utf8 []

theorem Encoded.append {front back : Bytes} (first : Encoded front) (second : Encoded back) :
    Encoded (front ++ back) := by
  obtain ⟨s, rfl⟩ := first
  obtain ⟨t, rfl⟩ := second
  rw [bytes, bytes, ← utf8_append]
  exact encoded_utf8 _

theorem Encoded.flatMap {α : Type} {write : α → Bytes} (encoded : ∀ a, Encoded (write a))
    (items : List α) : Encoded (items.flatMap write) := by
  induction items with
  | nil => exact .nil
  | cons a rest ih => exact (encoded a).append ih

/-- The bytes of a text are well-formed, and they are read as this text. -/
theorem decode?_bytes (text : String) : decode? (bytes text) = some text := by
  rw [bytes, decode?_utf8, String.ofList_toList]

end Text

open Text (Encoded)

/-! ## Outputs -/

theorem Registry.plainBlock_encoded (r : Registry) (metric : Metric) (timestamp : Int) :
    Encoded (r.plainBlock metric timestamp) := by
  rw [plainBlock_eq]
  exact Text.encoded_utf8 _

theorem Registry.blocks_encoded (r : Registry) (timestamp : Int) (count : Nat) :
    Encoded (r.blocks timestamp count) :=
  .flatMap (fun m => r.plainBlock_encoded (r.metrics[m]?.getD default) timestamp) _

namespace Request

variable {request : Request} {start : Station}

theorem Ending.output_encoded (timestamp : Int) (r : Registry) (ending : Ending) :
    Encoded (ending.output timestamp r) := by
  cases ending with
  | cut m => exact r.blocks_encoded timestamp (m + 1)
  | complete => exact (r.blocks_encoded timestamp _).append (Text.encoded_utf8 _)
  | refused => exact .nil
  | failed cause => exact .nil
  | abandoned => exact .nil

/-- What stands behind the content of the output is text, at every moment. -/
theorem Course.output_encoded {turns : Nat} {moment : Moment}
    (course : request.Course (request.first start) turns moment) :
    ∃ text : String, moment.out = request.buffer ++ Text.bytes text := by
  have led := course.led
  obtain ⟨events, since, conduct⟩ := course.led
  by_cases unfinished : moment.phase.IsOpen
  · -- nothing is written before the end
    obtain ⟨text, none⟩ := Encoded.nil
    exact ⟨text, by rw [(led.advances unfinished).kept, ← none, List.append_nil]⟩
  · cases phase : moment.phase with
    | waiting => exact absurd (by rw [phase]; trivial) unfinished
    | awaiting slots => exact absurd (by rw [phase]; trivial) unfinished
    | ended outcome =>
      rw [phase] at conduct
      obtain ⟨text, written⟩ := Ending.output_encoded request.timestamp moment.station.registry
        (request.ending start events moment.station.registry.metricCount)
      exact ⟨text, by rw [(conduct.accounted since).output, written]⟩

end Request

namespace Station

theorem collect_encoded (st : Station) (request : Request) :
    ∃ text : String, (st.collect request).2.out = request.buffer ++ Text.bytes text := by
  obtain ⟨turns, moment, course, out, -⟩ := st.collect_course request
  rw [out]
  exact course.output_encoded

/-- The collection whose output `render` gives as text. -/
def rendered (st : Station) (timestamp : Int) : Station × Result :=
  st.issue.1.collect { timestamp, token := st.issue.2 }

/-- Escaping bytes is escaping characters. What a collection appends is
well-formed at every moment and however it ends, and a rendered document is the
text of the bytes that a collection writes into an empty buffer. -/
theorem output_is_text :
    (∀ (out : Bytes) (value : String),
      writeEscaped out (Text.bytes value)
        = out ++ Text.bytes (String.ofList (escape value.toList))) ∧
    (∀ (request : Request) (start : Station) (turns : Nat) (moment : Request.Moment),
      request.Course (request.first start) turns moment →
      ∃ text, moment.out = request.buffer ++ Text.bytes text ∧
        Text.decode? (Text.bytes text) = some text) ∧
    (∀ (st : Station) (request : Request), ∃ text,
      (st.collect request).2.out = request.buffer ++ Text.bytes text ∧
        Text.decode? (Text.bytes text) = some text) ∧
    ∀ (st : Station) (timestamp : Int), ∃ text,
      (st.rendered timestamp).2.out = Text.bytes text ∧
      Text.decode? (st.rendered timestamp).2.out = some text ∧
      st.render timestamp = ((st.rendered timestamp).1,
        (st.rendered timestamp).2.outcome.map fun outcome => outcome.map fun _ => text) := by
  refine ⟨fun out value => ?escaped, fun request start turns moment course => ?course,
    fun st request => ?collect, fun st timestamp => ?render⟩
  case escaped =>
    rw [writeEscaped_eq, Text.bytes, escapeBytes_utf8, Text.bytes, String.toList_ofList]
  case course =>
    obtain ⟨text, written⟩ := course.output_encoded
    exact ⟨text, written, Text.decode?_bytes text⟩
  case collect =>
    obtain ⟨text, written⟩ := st.collect_encoded request
    exact ⟨text, written, Text.decode?_bytes text⟩
  case render =>
    obtain ⟨text, written⟩ := st.issue.1.collect_encoded { timestamp, token := st.issue.2 }
    have whole : (st.rendered timestamp).2.out = Text.bytes text := written
    have read : Text.decode? (st.rendered timestamp).2.out = some text := by
      rw [whole, Text.decode?_bytes]
    refine ⟨text, whole, read, ?_⟩
    have gives : st.render timestamp = ((st.rendered timestamp).1,
        (st.rendered timestamp).2.outcome.map fun outcome => outcome.map fun _ =>
          (Text.decode? (st.rendered timestamp).2.out).getD
            (String.ofList (Text.lossy (st.rendered timestamp).2.out))) := rfl
    rw [gives, read, Option.getD_some]

/-- A station with a metric and a series whose texts are not all ASCII. -/
def kitchen : Station :=
  { registry := {
      metrics := #[⟨"wärme", none, [0]⟩]
      series := #[⟨0, [Tag.of "raum" (.text "\"Küche\"\n\\☕")], none, .ofInt 21⟩] } }

/-- A request whose output does not begin with well-formed bytes. -/
def appended : Request := { timestamp := 7, token := 0, buffer := [0xff] }

/-- The collection ends with a document behind the content of its output. -/
theorem kitchen_is_text :
    (appended.next true (appended.first kitchen)).phase = .ended (.ok ()) ∧
    ∃ text, (appended.next true (appended.first kitchen)).out
        = appended.buffer ++ Text.bytes text ∧
      Text.decode? (Text.bytes text) = some text := by
  have asked : appended.Course (appended.first kitchen) 0 (appended.first kitchen) := .rest
  exact ⟨rfl, output_is_text.2.1 _ _ _ _ (asked.turn trivial true)⟩

end Station

end GaugeExporter
