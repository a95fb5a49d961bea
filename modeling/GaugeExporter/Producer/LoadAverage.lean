import GaugeExporter.Decimal.Numeral
import GaugeExporter.Text.Blank

/-!
# Load averages

The load averages of the last minute, five minutes and fifteen minutes are the
first three fields of a text file. `parse?` reads all three or none.
-/

namespace GaugeExporter.LoadAverage

open GaugeExporter.Binary (Double)

def metricName : String := "sensord_load_average"

def windowKey : String := "window"

def windows : List String := ["1m", "5m", "15m"]

def defaultPath : String := "/proc/loadavg"

def parse? (text : String) : Option (List Double) :=
  match (Text.fields text.toList).take 3 |>.map Double.ofText? with
  | [some one, some five, some fifteen] => some [one, five, fifteen]
  | _ => none

def unrecognized (path : String) : String :=
  s!"unrecognized load average format in {path}"

theorem length_of_parse? {text : String} {values : List Double} (h : parse? text = some values) :
    values.length = 3 := by
  unfold parse? at h
  split at h
  · cases h; rfl
  · cases h

end GaugeExporter.LoadAverage
