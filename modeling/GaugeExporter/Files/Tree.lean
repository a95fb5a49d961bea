import GaugeExporter.Files.Fault
import GaugeExporter.Files.Path

/-!
# A tree of files

A tree maps absolute paths, as lists of names, to directories and to files with
their bytes. The operations follow the system's rules for the last part of a
path: a file needs an existing parent directory, a directory is never
overwritten by a file, and a path that ends in a slash names no plain file. A
path that is refused leads nowhere, whatever the tree holds.
An operation that fails leaves the tree as it was.
-/

namespace GaugeExporter.Files

inductive Entry where
  | directory
  | file (content : Bytes)
  -- A file that cannot be read.
  | sealed (fault : Fault)
  deriving DecidableEq, Repr

/-- The entries below the root, which is always a directory. -/
structure Tree where
  entries : List (List String × Entry) := []
  deriving DecidableEq, Repr, Inhabited

namespace Tree

def get? (tree : Tree) (place : List String) : Option Entry :=
  if place = [] then some .directory else tree.entries.lookup place

def put (tree : Tree) (place : List String) (entry : Entry) : Tree :=
  ⟨(place, entry) :: tree.entries.filter (·.1 ≠ place)⟩

def drop (tree : Tree) (place : List String) : Tree :=
  ⟨tree.entries.filter (·.1 ≠ place)⟩

/-! ## Walks -/

/-- Follows names from a directory. Every name has to lead to a directory. -/
def walk (tree : Tree) (start : List String) : List String → Except Fault (List String)
  | [] => .ok start
  | "." :: rest => walk tree start rest
  | ".." :: rest => walk tree start.dropLast rest
  | name :: rest =>
    if isTooLong name then .error .nameTooLong
    else
      match tree.get? (start ++ [name]) with
      | none => .error .notFound
      | some .directory => walk tree (start ++ [name]) rest
      | some _ => .error .notDirectory

def locate (tree : Tree) (path : String) : Except Fault (List String × Target) :=
  match refusal? [path], target? path with
  | some fault, _ => .error fault
  | none, none => .error .notFound
  | none, some target =>
    match tree.walk [] target.parents with
    | .ok directory => .ok (directory, target)
    | .error fault => .error fault

/-! ## Operations -/

def read (tree : Tree) (path : String) : Except Fault Bytes :=
  match tree.locate path with
  | .error fault => .error fault
  | .ok (directory, target) =>
    match target.last with
    | .name name =>
      if isTooLong name then .error .nameTooLong
      else
        match tree.get? (directory ++ [name]) with
        | none => .error .notFound
        | some .directory => .error .isDirectory
        | some (.file content) => if target.slash then .error .notDirectory else .ok content
        | some (.sealed fault) => .error fault
    | _ => .error .isDirectory

def readText (tree : Tree) (path : String) : Except Fault String :=
  match tree.read path with
  | .error fault => .error fault
  | .ok content =>
    match Text.decode? content with
    | some text => .ok text
    | none => .error .notText

/-- Writes a file, over an older one if there is one. -/
def write (tree : Tree) (path : String) (content : Bytes) : Except Fault Tree :=
  match tree.locate path with
  | .error fault => .error fault
  | .ok (directory, target) =>
    match target.last with
    | .name name =>
      if target.slash then .error .isDirectory
      else if isTooLong name then .error .nameTooLong
      else
        match tree.get? (directory ++ [name]) with
        | some .directory => .error .isDirectory
        | _ => .ok (tree.put (directory ++ [name]) (.file content))
    | _ => .error .isDirectory

/-- Moves a file, over an older one if there is one. -/
def rename (tree : Tree) (source destination : String) : Except Fault Tree :=
  match refusal? [source, destination], tree.locate source, tree.locate destination with
  | some fault, _, _ => .error fault
  | none, .error fault, _ => .error fault
  | none, _, .error fault => .error fault
  | none, .ok (sourceDirectory, sourceTarget), .ok (directory, target) =>
    match sourceTarget.last, target.last with
    | .name sourceName, .name name =>
      match tree.get? (sourceDirectory ++ [sourceName]) with
      | none => .error .notFound
      | some .directory => .error .isDirectory
      | some entry =>
        if isTooLong name then .error .nameTooLong
        else if sourceTarget.slash || target.slash then .error .notDirectory
        else
          match tree.get? (directory ++ [name]) with
          | some .directory => .error .isDirectory
          | _ =>
            .ok ((tree.drop (sourceDirectory ++ [sourceName])).put (directory ++ [name]) entry)
    | _, _ => .error .resourceBusy

def remove (tree : Tree) (path : String) : Except Fault Tree :=
  match tree.locate path with
  | .error fault => .error fault
  | .ok (directory, target) =>
    match target.last with
    | .name name =>
      match tree.get? (directory ++ [name]) with
      | none => .error .notFound
      | some .directory => .error .isDirectory
      | some _ =>
        if target.slash then .error .notDirectory else .ok (tree.drop (directory ++ [name]))
    | _ => .error .isDirectory

def makeDirectory (tree : Tree) (path : String) : Tree :=
  let names := parts path
  (List.range names.length).foldl (fun t n =>
    let place := names.take (n + 1)
    match t.get? place with
    | some _ => t
    | none => t.put place .directory) tree

/-- Puts an entry at the end of a path, with the directories above it. -/
def supply (tree : Tree) (path : String) (entry : Entry) : Tree :=
  let names := parts path
  match names.dropLast, names.getLast? with
  | above, some name => (above.foldl (fun (t, place) part =>
      match part with
      | "." => (t, place)
      | ".." => (t, place.dropLast)
      | _ => (t.put (place ++ [part]) .directory, place ++ [part])) (tree, []))
    |> fun (t, place) => t.put (place ++ [name]) entry
  | _, none => tree

/-- A place comes before another: parents first, then by name. -/
def placeLE : List String → List String → Bool
  | [], _ => true
  | _ :: _, [] => false
  | a :: as, b :: bs => if a = b then placeLE as bs else decide (a ≤ b)

/-- The entries below a place, parents before their children, with the place
taken off. -/
def below (tree : Tree) (place : List String) : List (List String × Entry) :=
  let inside := tree.entries.filterMap fun (p, e) =>
    if place.isPrefixOf p && place.length < p.length then some (p.drop place.length, e) else none
  inside.mergeSort fun a b => placeLE a.1 b.1

/-! ## Entries after an operation -/

theorem get?_put_same (tree : Tree) {place : List String} (h : place ≠ []) (entry : Entry) :
    (tree.put place entry).get? place = some entry := by
  simp [get?, put, h]

theorem lookup_filter_ne {place other : List String} (h : other ≠ place)
    (entries : List (List String × Entry)) :
    (entries.filter (·.1 ≠ place)).lookup other = entries.lookup other := by
  induction entries with
  | nil => rfl
  | cons e rest ih =>
    obtain ⟨p, x⟩ := e
    by_cases hp : p = place
    · have : (other == p) = false := by simp [hp, h]
      simp only [List.lookup_cons, this]
      rw [List.filter_cons_of_neg (by simp [hp])]
      exact ih
    · rw [List.filter_cons_of_pos (by simp [hp])]
      cases ho : other == p <;> simp only [List.lookup_cons, ho]
      exact ih

theorem get?_put_of_ne (tree : Tree) {place other : List String} (h : other ≠ place)
    (entry : Entry) : (tree.put place entry).get? other = tree.get? other := by
  have : (other == place) = false := by simp [h]
  simp only [get?, put, List.lookup_cons, this, lookup_filter_ne h]

theorem get?_drop_of_ne (tree : Tree) {place other : List String} (h : other ≠ place) :
    (tree.drop place).get? other = tree.get? other := by
  simp only [get?, drop, lookup_filter_ne h]

end Tree

end GaugeExporter.Files
