import GaugeExporter.Toml.Value

/-!
# Documents under construction

While a document is read, a table knows how it came to be, because that decides
what may still be added to it. A table with a header of its own is closed to
dotted keys and to a second header. A table that a longer header passed through
takes a header later on. A table made by a dotted key takes more dotted keys and
no header. Values, inline tables among them, are closed to everything. An
operation that is not allowed, a second assignment of a key above all, gives
`none`.
-/

namespace GaugeExporter.Toml

/-- How a table came to be. -/
inductive Origin where
  -- By a header of its own.
  | header
  -- By a header of a table inside it.
  | implied
  -- By a dotted key.
  | dotted
  deriving DecidableEq, Repr

/-- Part of a document under construction. -/
inductive Node where
  | value (v : Value)
  | table (origin : Origin) (entries : List (String × Node))
  -- The tables of an array of tables, in order.
  | tables (items : List (List (String × Node)))

abbrev Entries := List (String × Node)

/-! ## Changes at a key -/

/-- Changes the entry at a key, which stays where it is; an entry for a new key
goes to the end. -/
def alter (key : String) (change : Option Node → Option Node) : Entries → Option Entries
  | [] => (change none).map fun node => [(key, node)]
  | (k, node) :: rest =>
    if k = key then (change (some node)).map fun node => (k, node) :: rest
    else (alter key change rest).map ((k, node) :: ·)

def alterLast {α : Type} (change : α → Option α) : List α → Option (List α)
  | [] => none
  | [last] => (change last).map ([·])
  | item :: rest => (alterLast change rest).map (item :: ·)

/-- Changes the table that a header passes through: the table itself, or the
last of an array of tables. An absent table is made. -/
def passing (change : Entries → Option Entries) : Option Node → Option Node
  | none => (change []).map (.table .implied)
  | some (.value _) => none
  | some (.table origin entries) => (change entries).map (.table origin)
  | some (.tables items) => (alterLast change items).map .tables

/-! ## Keys -/

/-- Assigns a value to a key with dots. The flag says that the table takes plain
keys and not only longer ones. -/
def assign (value : Value) : List String → Bool → Entries → Option Entries
  | [], _, _ => none
  | [key], plain, entries =>
    if plain then
      alter key (fun
        | none => some (.value value)
        | some _ => none) entries
    else none
  | key :: rest, _, entries =>
    alter key (fun
      | none => (assign value rest true []).map (.table .dotted)
      -- A key never goes into a table that has a header of its own.
      | some (.value _) | some (.table .header _) => none
      | some (.table .dotted inner) => (assign value rest true inner).map (.table .dotted)
      | some (.table .implied inner) => (assign value rest false inner).map (.table .implied)
      | some (.tables items) => (alterLast (assign value rest false) items).map .tables) entries

/-- Assigns values to keys one after another, beginning with an empty table. -/
def assignAll (pairs : List (List String × Value)) : Option Entries :=
  pairs.foldlM (fun entries (key, value) => assign value key true entries) []

/-! ## Headers -/

/-- Opens the table of a header. An implied table moves to the end. -/
def openTable : List String → Entries → Option Entries
  | [], _ => none
  | [key], entries =>
    match entries.lookup key with
    | none => some (entries ++ [(key, .table .header [])])
    | some (.table .implied inner) =>
      some (entries.filter (·.1 ≠ key) ++ [(key, .table .header inner)])
    | some _ => none
  | key :: rest, entries => alter key (passing (openTable rest)) entries

def openElement : List String → Entries → Option Entries
  | [], _ => none
  | [key], entries =>
    alter key (fun
      | none => some (.tables [[]])
      | some (.tables items) => some (.tables (items ++ [[]]))
      | some _ => none) entries
  | key :: rest, entries => alter key (passing (openElement rest)) entries

def within : List String → (Entries → Option Entries) → Entries → Option Entries
  | [], change, entries => change entries
  | key :: rest, change, entries => alter key (passing (within rest change)) entries

/-! ## Finished documents -/

mutual

def Node.toValue : Node → Value
  | .value v => v
  | .table _ entries => .table (finished entries)
  | .tables items => .array (finishedItems items)

def finished : List (String × Node) → Table
  | [] => []
  | (key, node) :: rest => (key, node.toValue) :: finished rest

def finishedItems : List (List (String × Node)) → List Value
  | [] => []
  | entries :: rest => .table (finished entries) :: finishedItems rest

end

/-- The entries of a part that is a table, however it is written. -/
def Node.entries? : Node → Option Entries
  | .value (.table entries) => some (entries.map fun (key, v) => (key, .value v))
  | .table _ entries => some entries
  | _ => none

/-! ## Statements -/

inductive Statement where
  | pair (key : List String) (value : Value)
  | table (path : List String)
  | element (path : List String)

/-- A document under construction, and the path of the header that is in
force. -/
structure Draft where
  entries : Entries := []
  path : List String := []

def Draft.take (draft : Draft) : Statement → Option Draft
  | .pair key value =>
    (within draft.path (assign value key true) draft.entries).map ({ draft with entries := · })
  | .table path => (openTable path draft.entries).map (⟨·, path⟩)
  | .element path => (openElement path draft.entries).map (⟨·, path⟩)

def Entries.ofStatements? (statements : List Statement) : Option Entries :=
  (statements.foldlM Draft.take {}).map Draft.entries

end GaugeExporter.Toml
