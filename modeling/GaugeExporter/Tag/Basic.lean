import GaugeExporter.Decimal.Layout
import GaugeExporter.Exposition.Escape
import GaugeExporter.Tag.Address
import GaugeExporter.Text.Quoted

/-!
# Tags

A tag is a key with a value text. Values of several types give such a text; the
tag does not remember which. Its exposition fragment `key="value"` holds the
key as it is and the value escaped. Two tags are equal exactly if key and value
text are.
-/

namespace GaugeExporter

open Binary (Double)

/-- A value that can become the text of a tag. -/
inductive TagValue where
  | text (s : String)
  | boolean (b : Bool)
  -- An optional value that is missing.
  | absent
  -- An optional value that is there.
  | present (value : TagValue)
  | character (c : Char)
  | integer (n : Int)
  | single (bits : UInt32)
  | double (x : Double)
  | address (a : Address)
  deriving DecidableEq, Repr

/-- The text of a tag value. Missing values are empty, numbers never have an
exponent. -/
def TagValue.toText : TagValue → String
  | .text s => s
  | .boolean b => if b then "true" else "false"
  | .absent => ""
  | .present value => value.toText
  | .character c => String.singleton c
  | .integer n => String.ofList (Decimal.integer n)
  | .single bits =>
    String.ofList (Decimal.Text.write Decimal.Text.plainStyle Binary.single bits.toNat)
  | .double x => String.ofList x.plain
  | .address a => String.ofList a.text

/-- A key with a value text. -/
structure Tag where
  key : String
  value : String
  deriving DecidableEq, Repr, Inhabited

namespace Tag

/-- The tag of a key and a value of any supported type. -/
def of (key : String) (value : TagValue) : Tag := ⟨key, value.toText⟩

def fragmentText (t : Tag) : List Char :=
  t.key.toList ++ '=' :: '"' :: Exposition.escape t.value.toList ++ ['"']

def fragment (t : Tag) : Bytes :=
  Exposition.writeEscaped (Text.bytes t.key ++ [0x3d, 0x22]) (Text.bytes t.value) ++ [0x22]

/-- Tags are compared in all that they are written with, the fragment too. -/
instance : BEq Tag where
  beq a b := a.key == b.key && a.value == b.value && a.fragment == b.fragment

def display (t : Tag) : String := s!"Tag({Text.quoted t.key}, {Text.quoted t.value})"

end Tag

end GaugeExporter
