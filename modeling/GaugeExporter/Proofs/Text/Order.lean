import Mathlib.Data.String.Basic
import Mathlib.Tactic.SplitIfs
import GaugeExporter.Text.Utf8

/-!
# The order of encoded texts

Texts compare by their code points exactly as their encodings compare byte by
byte.  The non-trivial ingredient is `utf8EncodeChar_append_lt`: of two
characters the smaller one has the smaller encoding, whatever follows.
`bytewiseLE` is the order of bytes written out.
-/

namespace GaugeExporter.Text

/-- Numbers compare by their leading digits to base 64, then by the last one. -/
theorem lt_by_digits {m n : Nat} (less : m < n) :
    m / 64 < n / 64 ∨ m / 64 = n / 64 ∧ m % 64 < n % 64 := by omega

/-- The encoding of the smaller character is smaller, and no prefix of the
other one: what follows does not matter. -/
theorem utf8EncodeChar_append_lt {c d : Char} (less : c < d) (s t : Bytes) :
    String.utf8EncodeChar c ++ s < String.utf8EncodeChar d ++ t := by
  have less : c.val.toNat < d.val.toNat := UInt32.lt_iff_toNat_lt.mp less
  have bound : d.val.toNat < 0x110000 := by
    have valid := d.valid
    simp only [UInt32.isValidChar, Nat.isValidChar] at valid
    omega
  unfold String.utf8EncodeChar
  generalize c.val.toNat = m at *
  generalize d.val.toNat = n at *
  -- The payloads of the bytes are the digits of the code points to base 64.
  have last := lt_by_digits less
  have third : m / 64 < n / 64 → _ := lt_by_digits
  have second : m / 64 / 64 < n / 64 / 64 → _ := lt_by_digits
  have quotients : ∀ k : Nat, k / 4096 = k / 64 / 64 ∧ k / 262144 = k / 64 / 64 / 64 := by omega
  simp only [(quotients m).1, (quotients m).2, (quotients n).1, (quotients n).2]
  split_ifs <;>
    simp only [List.cons_append, List.nil_append, List.cons_lt_cons_iff, UInt8.lt_iff_toNat_lt,
      ← UInt8.toNat_inj, UInt8.toNat_ofNat'] <;> omega

theorem utf8EncodeChar_ne_nil (c : Char) : String.utf8EncodeChar c ≠ [] := by
  intro empty
  have length := congrArg List.length empty
  have positive := c.utf8Size_pos
  simp only [String.length_utf8EncodeChar, List.length_nil] at length
  omega

theorem append_lt_append_left {s t : Bytes} (front : Bytes) : s < t → front ++ s < front ++ t := by
  intro less
  induction front with
  | nil => exact less
  | cons b front ih => exact List.cons_lt_cons_iff.mpr (.inr ⟨rfl, ih⟩)

theorem utf8_lt_of_lt : ∀ {s t : List Char}, s < t → utf8 s < utf8 t
  | [], [], less => absurd less (List.lt_irrefl _)
  | [], d :: t, _ => by
    rw [utf8_nil, utf8_cons]
    cases encoded : String.utf8EncodeChar d with
    | nil => exact absurd encoded (utf8EncodeChar_ne_nil d)
    | cons b rest => exact List.nil_lt_cons b _
  | _ :: _, [], less => absurd less (List.not_lt_nil _)
  | c :: s, d :: t, less => by
    rw [utf8_cons, utf8_cons]
    rcases List.cons_lt_cons_iff.mp less with first | ⟨rfl, rest⟩
    · exact utf8EncodeChar_append_lt first _ _
    · exact append_lt_append_left _ (utf8_lt_of_lt rest)

theorem utf8_lt_iff {s t : List Char} : utf8 s < utf8 t ↔ s < t := by
  constructor
  · intro less
    rcases lt_trichotomy s t with before | rfl | after
    · exact before
    · exact absurd less (List.lt_irrefl _)
    · exact absurd (utf8_lt_of_lt after) (List.lt_asymm less)
  · exact utf8_lt_of_lt

/-! ## The order byte by byte -/

/-- One run of bytes comes before another or is the same: decided at the first
byte in which they differ, a shorter run before its continuations. -/
def bytewiseLE : Bytes → Bytes → Bool
  | [], _ => true
  | _ :: _, [] => false
  | a :: s, b :: t => a < b || (a == b && bytewiseLE s t)

theorem bytewiseLE_iff : ∀ {s t : Bytes}, bytewiseLE s t = true ↔ ¬ t < s
  | [], _ => by simp [bytewiseLE]
  | _ :: _, [] => by simp [bytewiseLE]
  | a :: s, b :: t => by
    simp only [bytewiseLE, Bool.or_eq_true, decide_eq_true_eq, Bool.and_eq_true, beq_iff_eq,
      List.cons_lt_cons_iff, bytewiseLE_iff, not_or, not_and]
    constructor
    · rintro (less | ⟨rfl, rest⟩)
      · exact ⟨UInt8.lt_asymm less, fun same => absurd (same ▸ less) (UInt8.lt_irrefl _)⟩
      · exact ⟨UInt8.lt_irrefl _, fun _ => rest⟩
    · rintro ⟨notLess, rest⟩
      rcases Nat.lt_trichotomy a.toNat b.toNat with less | same | greater
      · exact .inl (UInt8.lt_iff_toNat_lt.mpr less)
      · exact .inr ⟨UInt8.toNat_inj.mp same, rest (UInt8.toNat_inj.mp same.symm)⟩
      · exact absurd (UInt8.lt_iff_toNat_lt.mpr greater) notLess

/-- Strings compare by their code points as their encodings do byte by byte. -/
theorem bytewiseLE_bytes (a b : String) : bytewiseLE (bytes a) (bytes b) = decide (a ≤ b) := by
  rw [Bool.eq_iff_iff, bytewiseLE_iff, bytes, bytes, utf8_lt_iff, decide_eq_true_eq]
  exact Iff.rfl

end GaugeExporter.Text
