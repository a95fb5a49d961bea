import GaugeExporter.Binary.Format
import GaugeExporter.Toml.DateTime

/-!
# Configuration values

The values of a configuration document. A table is a list of entries with
distinct keys; a value read from a document keeps its entries in document
order, and `sorted` puts every table into the order of its keys.
-/

namespace GaugeExporter.Toml

open GaugeExporter.Binary (Double)

inductive Value where
  | string (s : String)
  | integer (n : Int)
  | float (x : Double)
  | boolean (b : Bool)
  | dateTime (d : DateTime)
  | array (items : List Value)
  | table (entries : List (String × Value))
  deriving Repr, Inhabited

abbrev Table := List (String × Value)

namespace Value

/-! ## Order of keys -/

/-- The order of keys: by code points, which is the order of encoded bytes. -/
def keyLE {α : Type} (a b : String × α) : Bool := decide (a.1 ≤ b.1)

mutual

def sorted : Value → Value
  | .array items => .array (sortedItems items)
  | .table entries => .table ((sortedEntries entries).mergeSort keyLE)
  | v => v

def sortedItems : List Value → List Value
  | [] => []
  | v :: rest => v.sorted :: sortedItems rest

def sortedEntries : Table → Table
  | [] => []
  | (k, v) :: rest => (k, v.sorted) :: sortedEntries rest

end

/-! ## Equality as numbers compare -/

/-- Floating point values compare as numbers: zeros are equal whatever their
sign, and NaN equals nothing. -/
def floatsAgree (x y : Double) : Bool :=
  let isZero (x : Double) := x == .zero false || x == .zero true
  !x.isNaN && (x == y || isZero x && isZero y)

mutual

/-- Equality of values in which floating point values compare as numbers. -/
def agrees : Value → Value → Bool
  | .string a, .string b => a == b
  | .integer a, .integer b => a == b
  | .float a, .float b => floatsAgree a b
  | .boolean a, .boolean b => a == b
  | .dateTime a, .dateTime b => a == b
  | .array a, .array b => itemsAgree a b
  | .table a, .table b => entriesAgree a b
  | _, _ => false

def itemsAgree : List Value → List Value → Bool
  | [], [] => true
  | a :: as, b :: bs => a.agrees b && itemsAgree as bs
  | _, _ => false

def entriesAgree : Table → Table → Bool
  | [], [] => true
  | (k, a) :: as, (l, b) :: bs => k == l && a.agrees b && entriesAgree as bs
  | _, _ => false

end

end Value

end GaugeExporter.Toml
