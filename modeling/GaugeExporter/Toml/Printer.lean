import GaugeExporter.Decimal.Layout
import GaugeExporter.Toml.Node
import GaugeExporter.Toml.Spelling

/-!
# Writing documents

A table is written as the statements that describe it: its plain values first,
then for every table and array of tables among its entries, in order, a header
with the statements of that part. A header is left out where the headers inside
it imply it. `Value.text` is the text of a value on one line, `Table.text` that
of a document, in which longer arrays take a line for every item.
-/

namespace GaugeExporter.Toml

open GaugeExporter (Decimal)
open GaugeExporter.Binary (Double)

/-! ## Values -/

def floatStyle : Decimal.Text.Style := { Decimal.Text.pointedStyle with nan := "nan".toList }

def floatText (x : Double) : List Char :=
  Decimal.Text.write floatStyle Binary.double x.bits.toNat

inductive Layout where
  -- On one line.
  | compact
  -- Two items or more on a line each.
  | spread
  deriving DecidableEq, Repr

def itemLine (item : List Char) : List Char := '\n' :: ' ' :: ' ' :: ' ' :: ' ' :: item ++ [',']

def bracketed (layout : Layout) (items : List (List Char)) : List Char :=
  match layout, items with
  | .spread, first :: second :: rest =>
    '[' :: (first :: second :: rest).flatMap itemLine ++ ['\n', ']']
  | _, items => '[' :: List.flatten (items.intersperse [',', ' ']) ++ [']']

def braced : List (List Char) → List Char
  | [] => ['{', '}']
  | pairs => '{' :: ' ' :: List.flatten (pairs.intersperse [',', ' ']) ++ [' ', '}']

/-- A key, an equals sign and the text of a value. -/
def pairText (key : List String) (value : List Char) : List Char :=
  keyText key ++ ' ' :: '=' :: ' ' :: value

mutual

def Value.write (layout : Layout) : Value → List Char
  | .string s => stringText s
  | .integer n => Decimal.integer n
  | .float x => floatText x
  | .boolean b => if b then "true".toList else "false".toList
  | .dateTime d => d.text
  | .array items => bracketed layout (itemTexts layout items)
  | .table entries => braced (entryTexts layout entries)

def itemTexts (layout : Layout) : List Value → List (List Char)
  | [] => []
  | v :: rest => v.write layout :: itemTexts layout rest

def entryTexts (layout : Layout) : Table → List (List Char)
  | [] => []
  | (key, v) :: rest => pairText [key] (v.write layout) :: entryTexts layout rest

end

def Value.text (v : Value) : String := String.ofList (v.write .compact)

/-! ## Statements of a table -/

def Value.isTable : Value → Bool
  | .table _ => true
  | _ => false

/-- The value gets headers of its own: a table, or an array of tables and
nothing else. -/
def Value.hasHeader : Value → Bool
  | .table _ => true
  | .array [] => false
  | .array items => items.all isTable
  | _ => false

/-- The entries of a table that are written behind their key. -/
def plainPairs (entries : Table) : List Statement :=
  entries.filterMap fun (key, v) => if v.hasHeader then none else some (.pair [key] v)

mutual

def Value.statements (path : List String) : Value → List Statement
  | .table entries =>
    -- The headers inside imply this one, unless there is something to put under it.
    (if entries.isEmpty || !(plainPairs entries).isEmpty then [.table path] else [])
      ++ plainPairs entries ++ nested path entries
  | .array items => if (Value.array items).hasHeader then elements path items else []
  | _ => []

def elements (path : List String) : List Value → List Statement
  | [] => []
  | .table entries :: rest =>
    .element path :: plainPairs entries ++ nested path entries ++ elements path rest
  | _ :: rest => elements path rest

/-- The statements of the parts of a table that have headers. -/
def nested (path : List String) : List (String × Value) → List Statement
  | [] => []
  | (key, v) :: rest => v.statements (path ++ [key]) ++ nested path rest

end

def Table.statements (entries : Table) : List Statement := plainPairs entries ++ nested [] entries

/-! ## Text of a document -/

/-- The text of a statement with the end of its line. -/
def Statement.text : Statement → List Char
  | .pair key value => pairText key (value.write .spread) ++ ['\n']
  | .table path => '[' :: keyText path ++ [']', '\n']
  | .element path => '[' :: '[' :: keyText path ++ [']', ']', '\n']

def Statement.isHeader : Statement → Bool
  | .pair .. => false
  | _ => true

/-- The text of statements behind others: an empty line before every header. -/
def laterText : List Statement → List Char
  | [] => []
  | statement :: rest =>
    (if statement.isHeader then ['\n'] else []) ++ statement.text ++ laterText rest

def statementsText : List Statement → List Char
  | [] => []
  | statement :: rest => statement.text ++ laterText rest

def Table.text (entries : Table) : String :=
  String.ofList (statementsText (Table.statements entries))

end GaugeExporter.Toml
