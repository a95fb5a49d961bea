import GaugeExporter.Exposition.Line
import GaugeExporter.Registry.Basic

/-!
# Blocks of a document

`writeBlock` appends the block of one metric. The values are copied out first,
so that the decision to write a header and the lines behind it agree: into a
buffer of their own up to `inlineLimit` series, into the pooled buffer beyond.
The lines pair the copied values with the series by position. `plainBlock` says
the same without buffers.
-/

namespace GaugeExporter

open Binary (Double)

/-- Metrics with at most this many live series do not use the pooled buffer. -/
def inlineLimit : Nat := 32

namespace Registry

/-- Appends the line of a sample if its value is finite, and counts it. -/
def addSample (r : Registry) (metric : Metric) (timestamp : Int) (written : Bytes × Nat)
    (sample : SeriesId × Double) : Bytes × Nat :=
  if sample.2.isFinite then
    (Exposition.writeSample timestamp written.1 metric.name sample.2 (r.tags sample.1),
      written.2 + 1)
  else written

/-- Appends the block for copied values: nothing without a finite value,
otherwise a header and a line for every finite value. The number counts the
lines. -/
def encodeBlock (r : Registry) (metric : Metric) (timestamp : Int) (out : Bytes)
    (values : List Double) : Bytes × Nat :=
  if values.any Double.isFinite then
    (metric.live.zip values).foldl (r.addSample metric timestamp)
      (out ++ Exposition.typeHeader metric.name, 0)
  else (out, 0)

def refill (pool values : List Double) : List Double := pool.take 0 ++ values

/-- Appends the block of a metric. Gives the output, the number of sample lines
and the pooled buffer. -/
def writeBlock (r : Registry) (metric : Metric) (timestamp : Int) (out : Bytes)
    (pool : List Double) : Bytes × Nat × List Double :=
  let values := metric.live.map r.value
  if metric.live.length ≤ inlineLimit then
    let (out, lines) := r.encodeBlock metric timestamp out values
    (out, lines, pool)
  else
    let pool := refill pool values
    let (out, lines) := r.encodeBlock metric timestamp out pool
    (out, lines, pool)

/-- The live series of a metric that have a finite value, in list order. -/
def finiteSeries (r : Registry) (metric : Metric) : List SeriesId :=
  metric.live.filter fun s => (r.value s).isFinite

/-- The block of a metric: nothing if no series is finite, otherwise the header
and the line of every finite series. -/
def plainBlock (r : Registry) (metric : Metric) (timestamp : Int) : Bytes :=
  match r.finiteSeries metric with
  | [] => []
  | shown =>
    Exposition.typeHeader metric.name
      ++ shown.flatMap fun s =>
        Exposition.sampleLine timestamp metric.name (r.value s) (r.tags s)

end Registry

end GaugeExporter
