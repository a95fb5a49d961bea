import GaugeExporter.Text.Split

/-!
# Blank space

The white-space characters of the character database, trimming of both ends,
and splitting into fields. `trim` removes exactly the blank prefix and the
blank suffix; `fields` are the maximal runs without a blank.
-/

namespace GaugeExporter.Text

def isBlank (c : Char) : Bool :=
  let n := c.toNat
  (0x9 ≤ n && n ≤ 0xd) || n == 0x20 || n == 0x85 || n == 0xa0 || n == 0x1680
    || (0x2000 ≤ n && n ≤ 0x200a) || n == 0x2028 || n == 0x2029 || n == 0x202f
    || n == 0x205f || n == 0x3000

def trim (text : List Char) : List Char :=
  ((text.dropWhile isBlank).reverse.dropWhile isBlank).reverse

def isBlankText (text : String) : Bool := text.toList.all isBlank

/-- The maximal runs of characters that are not blank, in order. -/
def fields (text : List Char) : List (List Char) := pieces isBlank text

theorem trim_eq_nil_iff {text : List Char} : trim text = [] ↔ text.all isBlank = true := by
  have drop_nil : ∀ cs : List Char, cs.dropWhile isBlank = [] ↔ cs.all isBlank = true := by
    intro cs
    induction cs with
    | nil => simp
    | cons c rest ih => by_cases h : isBlank c <;> simp [h, ih]
  rw [trim, List.reverse_eq_nil_iff, drop_nil, List.all_reverse]
  constructor
  · intro h
    rw [← drop_nil]
    cases hd : text.dropWhile isBlank with
    | nil => rfl
    | cons c rest =>
      have head := @List.head_dropWhile_not _ isBlank text (by rw [hd]; simp)
      simp only [hd, List.all_cons, Bool.and_eq_true, List.head_cons] at h head
      simp [h.1] at head
  · intro h
    rw [(drop_nil text).mpr h]; rfl

end GaugeExporter.Text
