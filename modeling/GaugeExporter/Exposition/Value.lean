import GaugeExporter.Decimal.Layout
import GaugeExporter.Text.Utf8

/-!
# Sample values

A finite value is written with its shortest digits, positionally or in
scientific form, whichever text is shorter; positional text wins a tie. The
other values have fixed tokens, so every value has a text of its own up to the
choice of NaN. `valueText` is this text; `writeValue` works on a buffer, where
it writes both forms and cuts the longer one out again.
-/

namespace GaugeExporter.Exposition

open GaugeExporter.Binary (Double)

def magnitudeText (d : Decimal) : List Char :=
  if d.scientific.length < d.positional.length then d.scientific else d.positional

def valueStyle : Decimal.Text.Style where
  nan := "Nan".toList
  positiveInfinity := "+Inf".toList
  negativeInfinity := "-Inf".toList
  magnitude := magnitudeText

def valueText (x : Double) : List Char :=
  Decimal.Text.write valueStyle Binary.double x.bits.toNat

/-- Appends a sample value to a buffer. Both forms of a finite value go straight
behind the content, and the longer one is cut out again. -/
def writeValue (out : Bytes) (x : Double) : Bytes :=
  match x.number with
  | .nan => out ++ Text.bytes "Nan"
  | .infinite false => out ++ Text.bytes "+Inf"
  | .infinite true => out ++ Text.bytes "-Inf"
  | .finite .. =>
    let plain := out ++ Text.utf8 x.plain
    let both := plain ++ Text.utf8 x.exponential
    if both.length - plain.length < plain.length - out.length then
      both.take out.length ++ both.drop plain.length
    else both.take plain.length

def valueBytes (x : Double) : Bytes := writeValue [] x

end GaugeExporter.Exposition
