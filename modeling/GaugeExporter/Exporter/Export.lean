import GaugeExporter.Collection.System
import GaugeExporter.Exporter.Publish

/-!
# Exports

An export is one collection into a buffer and, if that succeeds, the publication
of what the buffer holds then. The buffer is used from export to export and is
cleared before each. A failed collection touches no file.
-/

namespace GaugeExporter

inductive Sink where
  | standardOutput
  | file (path : String)
  deriving DecidableEq, Repr

inductive ExportError where
  | collection (cause : CollectError)
  | publication (cause : PublishError)
  deriving DecidableEq, Repr

def CollectError.causes : CollectError → List Failure
  | .callback failure => [failure]
  | .cancelled => []

def ExportError.chain : ExportError → List Failure
  | .collection cause => .message "collection failed" :: .message cause.message :: cause.causes
  | .publication cause => (cause.message?.map Failure.message).toList ++ [.file cause.fault]

section Storage

variable {m : Type → Type} [Monad m] (storage : Storage m)

def Sink.publish (document : Bytes) : Sink → m (Except PublishError Unit)
  | .standardOutput => return (← storage.print document).mapError .print
  | .file path => GaugeExporter.publish storage path document

/-- What comes after a collection: the publication of the document, unless the
collection failed. Gives the size of the document. -/
def conclude (sink : Sink) (document : Bytes) (outcome : Outcome) : m (Except ExportError Nat) := do
  match outcome with
  | .error cause => return .error (.collection cause)
  | .ok () =>
    match ← sink.publish storage document with
    | .error cause => return .error (.publication cause)
    | .ok () => return .ok document.length

end Storage

namespace Station

def timestamp (st : Station) : Int := (st.clock / 1000000 : Nat)

/-- The collection of an export, into a buffer that is cleared first. The token is
cancelled from outside once the journal reads like this. -/
def exportRequest (st : Station) (token : TokenId) (buffer : Bytes)
    (outside : Array Event → Bool := fun _ => false) : Request where
  timestamp := st.timestamp
  token
  buffer := buffer.take 0
  outside

/-- One export with a token. Gives the buffer afterwards; the result is missing
if the collection does not come to an end. -/
def exportInto {m : Type → Type} [Monad m] (storage : Storage m) (st : Station) (sink : Sink)
    (token : TokenId) (buffer : Bytes) (outside : Array Event → Bool := fun _ => false) :
    m (Station × Bytes × Option (Except ExportError Nat)) := do
  let (st, result) := st.collect (st.exportRequest token buffer outside)
  match result.outcome with
  | none => return (st, result.out, none)
  | some outcome => return (st, result.out, some (← conclude storage sink result.out outcome))

/-- What comes after a collection, on the files of the station and beside a standard
output that answers like this. -/
def conclude (st : Station) (sink : Sink) (document : Bytes) (outcome : Outcome)
    (outlet : Except Files.Fault Unit := .ok ()) : Station × Except ExportError Nat :=
  let (result, files) :=
    (GaugeExporter.conclude (Files.Tree.storage outlet) sink document outcome).run st.files
  ({ st with files }, result)

/-- One export into a new buffer, to the files of the station. -/
def exportOnce (st : Station) (sink : Sink) (token : TokenId) :
    Station × Option (Except ExportError Nat) :=
  let ((st', _, result), files) :=
    (st.exportInto Files.Tree.storage sink token []).run st.files
  ({ st' with files }, result)

end Station

end GaugeExporter
