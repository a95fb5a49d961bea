import GaugeExporter.Binary.Format
import GaugeExporter.Tag.Basic

/-!
# What callbacks do

A callback is a program of actions on the registry. Scripts refer to the
metrics and series they have made by number, in the order they were made, can
look at their surroundings to decide how to go on, and can register further
scripts; producers hold the identifiers of their own series. An asynchronous
script consists of a part that runs when the callback is called and a body that
runs when its result is awaited and may suspend.
-/

namespace GaugeExporter

open Binary (Double)

/-- The position of a metric in its registry. -/
abbrev MetricId := Nat

/-- The position of a series in its registry, over all metrics. -/
abbrev SeriesId := Nat

abbrev TokenId := Nat

/-- Where a script creates a series: in a metric it made, or in the metric of a
series it made. -/
inductive Place where
  | metric (number : Nat)
  | besides (series : Nat)
  deriving DecidableEq, Repr

structure Glimpse where
  -- How often the script ran before.
  run : Nat
  -- The token of the collection has been cancelled.
  cancelled : Bool
  -- Nanoseconds since the epoch.
  clock : Nat
  -- The values of the series that scripts have made.
  values : List Double
  -- The numbers of live series of the metrics that scripts have made.
  sizes : List Nat

inductive Action where
  -- Registers a metric, sorted by a tag if one is named.
  | metric (name : String) (sortField : Option String)
  | create (place : Place) (tags : List Tag) (value : Option Double)
  -- Creates a series for every row.
  | bulk (metric : Nat) (rows : List (List Tag × Option Double))
  | set (series : Nat) (value : Double)
  -- Adds to the current value.
  | add (series : Nat) (value : Double)
  | remove (series : Nat)
  -- Registers a synchronous script.
  | onSync (actions : List Action)
  -- Registers an asynchronous script.
  | onAsync (call body : List Action)
  -- Notes a text together with the number of earlier runs.
  | log (text : String)
  -- Fails, in the listed runs only if there is a list.
  | fail (text : String) (runs : Option (List Nat))
  -- Cancels the token of the collection with this index.
  | cancel (collection : Nat)
  -- Cancels the token of the collection that runs the script.
  | cancelOwn
  | tick
  -- Looks around and goes on as the choice says. A choice does not suspend.
  | choose (choice : Glimpse → List Action)
  -- Suspends once.
  | yield
  -- Suspends for good.
  | pending

inductive SyncCallback where
  -- A script, with the counter of its runs.
  | script (counter : Nat) (actions : List Action)
  -- Sets a series to the seconds since a moment, given in nanoseconds.
  | uptime (series : SeriesId) (started : Nat)

/-- A callback whose result is awaited before every collection. -/
inductive AsyncCallback where
  -- A script, with the counter of its runs.
  | script (counter : Nat) (call body : List Action)
  -- Sets the series to the load averages in a file.
  | loadAverage (path : String) (series : List SeriesId)

/-- A called asynchronous callback: what is left to do. -/
inductive Body where
  -- The rest of a script's body, in a run with this number.
  | script (run : Nat) (rest : List Action)
  -- A body whose call failed.
  | failed (text : String)
  -- The file has not been asked for yet.
  | openFile (path : String) (series : List SeriesId)
  -- The content of the file has been asked for.
  | readFile (path : String) (series : List SeriesId)

/-- An upper bound on the polls after which a body that never suspends for good
has ended. -/
def Body.remaining : Body → Nat
  | .script _ rest => rest.length + 1
  | .failed _ => 1
  | .openFile .. => 2
  | .readFile .. => 1

end GaugeExporter
