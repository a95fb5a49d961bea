import GaugeExporter.Exposition.Value
import GaugeExporter.Tag.Basic

/-!
# Lines of the exposition format

A document consists of blocks, one for each metric that has something to show,
and a closing line. A block is a type header and a line for every sample. All
three kinds of line end in a line feed.
-/

namespace GaugeExporter.Exposition

open GaugeExporter.Binary (Double)

/-- The line in front of the samples of a metric. -/
def typeHeader (name : String) : Bytes :=
  Text.bytes "# TYPE " ++ Text.bytes name ++ Text.bytes " gauge\n"

def documentEnd : Bytes := Text.bytes "# EOF\n"

/-- Fragments with commas between them in braces, nothing without tags. -/
def tagBlock : List Tag → Bytes
  | [] => []
  | first :: rest =>
    0x7b :: first.fragment ++ rest.flatMap (fun t => 0x2c :: t.fragment) ++ [0x7d]

/-- The line of one sample: name, tags, value and timestamp. -/
def sampleLine (timestamp : Int) (name : String) (value : Double) (tags : List Tag) : Bytes :=
  Text.bytes name ++ tagBlock tags ++ 0x20 :: valueBytes value
    ++ 0x20 :: Text.utf8 (Decimal.integer timestamp) ++ [0x0a]

/-- Appends the line of one sample to a buffer. -/
def writeSample (timestamp : Int) (out : Bytes) (name : String) (value : Double)
    (tags : List Tag) : Bytes :=
  writeValue (out ++ Text.bytes name ++ tagBlock tags ++ [0x20]) value
    ++ 0x20 :: Text.utf8 (Decimal.integer timestamp) ++ [0x0a]

end GaugeExporter.Exposition
