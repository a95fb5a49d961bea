import GaugeExporter.Decimal.Basic

/-!
# Text of network addresses

Four bytes are written in decimal with points between them. Eight groups are
written in lower-case hexadecimal with colons; the longest run of two or more
zero groups, the first of equals, shrinks to a double colon. An address that
embeds four bytes behind `::ffff:` shows them in decimal.
-/

namespace GaugeExporter

inductive Address where
  | v4 (bytes : List UInt8)
  | v6 (groups : List UInt16)
  deriving DecidableEq, Repr

namespace Address

def joined (separator : Char) (texts : List (List Char)) : List Char :=
  List.flatten (texts.intersperse [separator])

def dotted (bytes : List UInt8) : List Char :=
  joined '.' (bytes.map fun b => Decimal.digits b.toNat)

def colons (groups : List UInt16) : List Char :=
  joined ':' (groups.map fun g => Nat.toDigits 16 g.toNat)

/-- The length of the run of zero groups at the front. -/
def leadingZeros (groups : List UInt16) : Nat := (groups.takeWhile (· == 0)).length

/-- Start and length of the longest run of zero groups, the first of equals. -/
def longestZeros : List UInt16 → Nat × Nat
  | [] => (0, 0)
  | g :: rest =>
    let here := leadingZeros (g :: rest)
    let (start, length) := longestZeros rest
    if length ≤ here ∧ 0 < here then (0, here) else (start + 1, length)

def halves (g : UInt16) : List UInt8 := [(g >>> 8).toUInt8, g.toUInt8]

def text : Address → List Char
  | .v4 bytes => dotted bytes
  | .v6 groups =>
    match groups with
    | [0, 0, 0, 0, 0, 0xffff, high, low] => "::ffff:".toList ++ dotted (halves high ++ halves low)
    | _ =>
      let (start, length) := longestZeros groups
      if 1 < length then
        colons (groups.take start) ++ ':' :: ':' :: colons (groups.drop (start + length))
      else colons groups

end Address

end GaugeExporter
