import GaugeExporter.CommandLine.Execute
import Std.Async.Signal
import Std.Time.DateTime.Timestamp

/-!
# The program

Takes snapshots of the files that a command reads, lets the library do its
work, and prints and publishes what it gives.
-/

namespace GaugeExporter.Program

open CommandLine (Invocation Command Completion)

/-! ## The system -/

/-- The system's number of an error, which some operations give with a minus
sign. -/
def errorNumber (code : UInt32) : Nat :=
  if 0x80000000 ≤ code then (0 - code).toNat else code.toNat

def faultOf : IO.Error → Files.Fault
  | .noFileOrDirectory _ code text | .interrupted _ code text => .ofCode (errorNumber code) text
  | .alreadyExists _ code text | .invalidArgument _ code text | .permissionDenied _ code text
  | .resourceExhausted _ code text | .inappropriateType _ code text
  | .noSuchThing _ code text => .ofCode (errorNumber code) text
  | .otherError code text | .resourceBusy code text | .resourceVanished code text
  | .unsupportedOperation code text | .hardwareFault code text
  | .unsatisfiedConstraints code text | .illegalOperation code text
  | .protocolError code text | .timeExpired code text => .ofCode (errorNumber code) text
  | .unexpectedEof => .other 0 "unexpected end of file"
  | .userError text => .other 0 text

def attempt (paths : List String) (operation : IO Unit) : IO (Except Files.Fault Unit) := do
  if let some fault := Files.refusal? paths then return .error fault
  try
    operation
    return .ok ()
  catch e => return .error (faultOf e)

def print (document : Bytes) : IO Unit := do
  let output ← IO.getStdout
  output.write ⟨document.toArray⟩
  output.flush

def storage : Storage IO where
  write path content := attempt [path] (IO.FS.writeBinFile path ⟨content.toArray⟩)
  rename source target := attempt [source, target] (IO.FS.rename source target)
  remove path := attempt [path] (IO.FS.removeFile path)
  print document := attempt [] (print document)

def snapshot (files : Files.Tree) (path : String) : IO Files.Tree := do
  try
    let content ← IO.FS.readBinFile path
    return files.supply path (.file content.toList)
  catch e =>
    match faultOf e with
    | .notFound => return files
    | .isDirectory => return files.supply path .directory
    | fault => return files.supply path (.sealed fault)

def now : IO Nat := do
  let moment ← Std.Time.Timestamp.now
  return moment.toNanosecondsSinceUnixEpoch.val.toNat

/-- The station with the current time and the current content of the files that
its callbacks read. -/
def refreshed (st : Station) : IO Station := do
  let mut files : Files.Tree := {}
  for callback in st.registry.asyncCallbacks do
    match callback with
    | .loadAverage path _ => files ← snapshot files path
    | .script .. => pure ()
  return { st with files, clock := ← now }

/-! ## Commands -/

def conclude (done : Completion) : IO UInt32 := do
  (← IO.getStderr).putStr done.errors
  let output ← IO.getStdout
  output.putStr done.output
  output.flush
  return done.exit.toUInt32

/-! ## Exports -/

/-- Waits for a moment, or for the signal if that comes first. -/
partial def pause (signal : Std.Async.AsyncTask Int) (moment : Nat) : IO Unit := do
  let time ← IO.monoMsNow
  if moment ≤ time || (← IO.hasFinished signal) then return
  IO.sleep (min (moment - time) 50).toUInt32
  pause signal moment

/-- The moment of the tick after one that was due at a moment. A tick that comes late
delays those behind it. -/
def nextTick (period due time : Nat) : Nat :=
  if time ≤ due + 5 then due + period else time + period

/-- Lets the loop take a cue, at this time and with what the files hold now. -/
def take (loop : Loop) (cue : Cue) : IO Loop := do
  let loop := { loop with station := ← refreshed loop.station }
  let (loop, result) ← loop.stepOn storage cue
  if let some (.error e) := result then
    unless loop.isCancelled do
      let causes := ": ".intercalate (e.chain.map Failure.text)
      IO.eprintln s!"export failed: {causes}"
  return { loop with printed := [] }

/-- Gives the loop its cues: a tick when one is due, and a shutdown as soon as the
signal has come. -/
partial def drive (signal : Std.Async.AsyncTask Int) (period due : Nat) (loop : Loop) :
    IO Unit := do
  let fired ← IO.hasFinished signal
  match loop.cue? fun _ => fired with
  | none => return
  | some .tick =>
    let time ← IO.monoMsNow
    if time < due then
      pause signal due
      drive signal period due loop
    else
      let loop := { loop with station := loop.station.clearJournal }
      drive signal period (nextTick period due time) (← take loop .tick)
  | some cue => drive signal period due (← take loop cue)

def perform (asked : Invocation) : IO UInt32 := do
  let start (path : String) : IO Station := do
    return { files := ← snapshot {} path, clock := ← now }
  match asked with
  | .command (.collect path) =>
    match CommandLine.prepare (← start path) path with
    | .error report => conclude (.failure report)
    | .ok (st, _) => conclude (CommandLine.renderOnce (← refreshed st))
  | .command (.checkConfig path) => conclude (CommandLine.checkConfig (← start path) path)
  | .command (.run path) =>
    match CommandLine.prepare (← start path) path with
    | .error report => conclude (.failure report)
    | .ok (st, config) =>
      match config.exporter.period with
      | .error e => conclude (.failure (.ofLate e))
      | .ok period =>
        let waiter ← Std.Async.Signal.Waiter.mk .sigint false
        let signal ← waiter.wait
        drive signal period.milliseconds (← IO.monoMsNow)
          (Loop.every period st (CommandLine.sink config))
        -- A loop without a ticker stops at once, and only the signal is awaited.
        discard (IO.wait signal)
        return 0
  | _ => conclude (CommandLine.perform (fun _ => true) 0 {} asked).2

end GaugeExporter.Program

def main (arguments : List String) : IO UInt32 :=
  GaugeExporter.Program.perform (GaugeExporter.CommandLine.Invocation.ofArguments arguments)
