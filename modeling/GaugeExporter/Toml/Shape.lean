import GaugeExporter.Decimal.Layout
import GaugeExporter.Text.Quoted
import GaugeExporter.Toml.DateTime.Reader
import GaugeExporter.Toml.Value

/-!
# Shapes

A document can be well-formed and still not have the shape that its reader
expects. `ShapeError` says what is wrong with it, and `Misfit` where.
-/

namespace GaugeExporter.Toml

open GaugeExporter.Binary (Double)

/-- What was found in place of the expected shape. -/
inductive Kind where
  | string (s : String)
  | integer (n : Int)
  | float (x : Double)
  | boolean (b : Bool)
  | sequence
  | map
  deriving DecidableEq, Repr

def Kind.display : Kind → String
  | .string s => s!"string {Text.quoted s}"
  | .integer n => s!"integer `{n}`"
  | .float x => "floating point `" ++ String.ofList x.pointed ++ "`"
  | .boolean b => s!"boolean `{b}`"
  | .sequence => "sequence"
  | .map => "map"

/-- What is wrong with the shape of a document. -/
inductive ShapeError where
  | wrongKind (found : Kind) (expected : String)
  | missingField (name : String)
  | unknownField (name : String) (known : List String)
  | unknownVariant (name : String) (known : List String)
  -- A choice is neither a string nor a table.
  | notChoice
  -- A choice is an empty table.
  | noChoice
  -- A choice is a table with more than one entry.
  | manyChoices
  -- A chosen variant carries something where it should carry nothing.
  | notEmpty
  -- A chosen variant carries tables with headers of their own.
  | notEmptyArray
  -- A chosen variant carries something other than a table.
  | notTable (found : String)
  -- A table has a number of entries that it should not have.
  | wrongLength (found : Nat) (expected : String)
  -- A text in the place of a date-time is none.
  | notDateTime (cause : DateTimeError)
  deriving DecidableEq, Repr

def choicesText (known : List String) : String :=
  match known with
  | [only] => s!"`{only}`"
  | [one, other] => s!"`{one}` or `{other}`"
  | _ => "one of " ++ ", ".intercalate (known.map fun name => s!"`{name}`")

def ShapeError.message : ShapeError → String
  | .wrongKind found expected => s!"invalid type: {found.display}, expected {expected}"
  | .missingField name => s!"missing field `{name}`"
  | .unknownField name known => s!"unknown field `{name}`, expected {choicesText known}"
  | .unknownVariant name known => s!"unknown variant `{name}`, expected {choicesText known}"
  | .notChoice => "wanted string or table"
  | .noChoice => "wanted exactly 1 element, found 0 elements"
  | .manyChoices => "wanted exactly 1 element, more than 1 element"
  | .notEmpty => "expected empty table"
  | .notEmptyArray => "expected empty array"
  | .notTable found => s!"expected table, found {found}"
  | .wrongLength found expected => s!"invalid length {found}, expected {expected}"
  | .notDateTime cause => cause.message

/-- A shape error and the keys that lead to its place. -/
structure Misfit where
  cause : ShapeError
  path : List String := []
  deriving DecidableEq, Repr

/-- The misfit as seen from a table that has its place under a key. -/
def Misfit.under (key : String) (e : Misfit) : Misfit := { e with path := key :: e.path }

def Misfit.text (e : Misfit) : String :=
  if e.path = [] then s!"{e.cause.message}\n"
  else
    let place := ".".intercalate e.path
    s!"{e.cause.message}\nin `{place}`\n"

namespace Value

/-- The kind of a value. A date-time counts as the kind it is given. -/
def kind (dateTime : DateTime → Kind) : Value → Kind
  | .string s => .string s
  | .integer n => .integer n
  | .float x => .float x
  | .boolean b => .boolean b
  | .dateTime d => dateTime d
  | .array _ => .sequence
  | .table _ => .map

def typeName : Value → String
  | .string _ => "string"
  | .integer _ => "integer"
  | .float _ => "float"
  | .boolean _ => "boolean"
  | .dateTime _ => "datetime"
  | .array _ => "array"
  | .table _ => "table"

end Value

end GaugeExporter.Toml
