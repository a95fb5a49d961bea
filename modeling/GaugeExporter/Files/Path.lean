import GaugeExporter.Files.Fault
import GaugeExporter.Text.Split
import GaugeExporter.Text.Utf8

/-!
# Paths

A path is split at its slashes. `target?` tells what the last part of a path
names, and `refusal?` which paths no operation takes; `temporary` is the sibling
of a path under which a document is written before it is moved into place: the
file name with `.tmp` behind it, in the same directory.
-/

namespace GaugeExporter.Files

open GaugeExporter (Bytes)

/-! ## The last part of a path -/

/-- What the last part of a path names. -/
inductive Last where
  | root
  | here
  | parent
  | name (name : String)
  deriving DecidableEq, Repr

/-- A path taken apart for a walk. -/
structure Target where
  -- The parts in front of the last one.
  parents : List String
  last : Last
  -- A slash follows the last part.
  slash : Bool
  deriving DecidableEq, Repr

def parts (path : String) : List String :=
  (Text.pieces (· == '/') path.toList).map String.ofList

/-- Takes a path apart; the empty path has no target. -/
def target? (path : String) : Option Target :=
  if path.isEmpty then none
  else
    let names := parts path
    let last :=
      match names.getLast? with
      | none => Last.root
      | some "." => .here
      | some ".." => .parent
      | some n => .name n
    some ⟨names.dropLast, last, path.toList.getLast? == some '/'⟩

def nameLimit : Nat := 255

def isTooLong (name : String) : Bool := decide (nameLimit < (Text.bytes name).length)

/-! ## Paths that are refused -/

/-- The character that ends a path and cannot stand in it. -/
def endMark : Char := '\x00'

/-- File systems take paths of at most this many bytes, with the end mark. -/
def pathLimit : Nat := 4096

def isOverlong (path : String) : Bool := decide (pathLimit < (Text.bytes path).length + 1)

/-- Why an operation on these paths fails before any of them is followed. -/
def refusal? (paths : List String) : Option Fault :=
  if paths.any (·.toList.contains endMark) then some .endInPath
  else if paths.any isOverlong then some .nameTooLong
  else none

/-! ## The temporary sibling -/

/-- A part that does not move a walk: nothing between two slashes, or a dot. -/
def isIdle (part : List Char) : Bool := part = [] || part = ['.']

/-- Drops idle parts from the end, but keeps the first part of the path, which
tells an absolute path from a relative one. -/
def dropIdle : List (List Char) → List (List Char)
  | [] => []
  | [first] => [first]
  | first :: rest =>
    let kept := rest.reverse.dropWhile isIdle
    first :: kept.reverse

def joinParts (parts : List (List Char)) : List Char :=
  List.flatten (parts.intersperse ['/'])

def append (directory name : List Char) : List Char :=
  match directory.getLast? with
  | none | some '/' => directory ++ name
  | some _ => directory ++ '/' :: name

/-- The path of a name in a directory that is given by its parts. -/
def joinName (name : List Char) : List (List Char) → List Char
  | [] => name
  | [[]] => '/' :: name
  | directory => append (joinParts directory) name

def suffix : List Char := ['.', 't', 'm', 'p']

def temporaryText (path : List Char) : List Char :=
  let all := dropIdle (Text.split (· == '/') path)
  match all.getLast? with
  -- Without a file name the suffix is the name, behind the path as it is.
  | none | some [] | some ['.'] | some ['.', '.'] => append path suffix
  | some name => joinName (name ++ suffix) (dropIdle all.dropLast)

def temporary (path : String) : String := String.ofList (temporaryText path.toList)

end GaugeExporter.Files
