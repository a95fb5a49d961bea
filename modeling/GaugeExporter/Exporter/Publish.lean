import GaugeExporter.Files.Tree

/-!
# Publishing documents

A document is written to a temporary sibling of its file and moved into place,
so that a reader of the file sees the old document or the new one. If it cannot
be moved the temporary file is removed. `publish` works on any storage;
`Files.Tree.storage` is the storage that a tree of files gives, beside a
standard output that takes a document as a whole or not at all.
-/

namespace GaugeExporter

open Files (Fault Tree)

/-- The operations that publishing needs. -/
structure Storage (m : Type → Type) where
  write : String → Bytes → m (Except Fault Unit)
  -- Moves a file over another.
  rename : String → String → m (Except Fault Unit)
  remove : String → m (Except Fault Unit)
  -- Writes to standard output and flushes it.
  print : Bytes → m (Except Fault Unit)

/-- Why a document was not published. -/
inductive PublishError where
  -- The temporary file could not be written.
  | write (path : String) (fault : Fault)
  -- The temporary file could not be moved to its target.
  | move (target : String) (fault : Fault)
  -- Standard output failed.
  | print (fault : Fault)
  deriving DecidableEq, Repr

/-- What was attempted. Nothing is said of standard output. -/
def PublishError.message? : PublishError → Option String
  | .write path _ => some s!"failed to write {path}"
  | .move target _ => some s!"failed to move document into {target}"
  | .print _ => none

def PublishError.fault : PublishError → Fault
  | .write _ fault | .move _ fault | .print fault => fault

def publish {m : Type → Type} [Monad m] (storage : Storage m) (target : String)
    (document : Bytes) : m (Except PublishError Unit) := do
  let draft := Files.temporary target
  match ← storage.write draft document with
  | .error fault => return .error (.write draft fault)
  | .ok () =>
    match ← storage.rename draft target with
    | .ok () => return .ok ()
    | .error fault =>
      -- The cause is the failed move, whatever becomes of the removal.
      let _ ← storage.remove draft
      return .error (.move target fault)

/-! ## Trees as storage -/

def Files.Tree.attempt (operation : Tree → Except Fault Tree) : StateM Tree (Except Fault Unit) :=
  fun tree =>
    match operation tree with
    | .ok changed => (.ok (), changed)
    | .error fault => (.error fault, tree)

/-- A tree of files, and a standard output that answers like this. -/
def Files.Tree.storage (outlet : Except Fault Unit := .ok ()) : Storage (StateM Tree) where
  write path content := attempt (·.write path content)
  rename source target := attempt (·.rename source target)
  remove path := attempt (·.remove path)
  print _ := return outlet

end GaugeExporter
