import GaugeExporter.Text.Utf8

/-!
# Escapes in label values

A double quote, a backslash and a line feed are written as two characters.
`escape` says so character by character; `escapeBytes` works on the encoded
value and copies the runs between escaped bytes whole. `writeEscaped` does this
behind the content of a buffer, where a run is a range of positions. `unescape`
reads all of them back and leaves escapes it does not know as they are.
-/

namespace GaugeExporter.Exposition

/-! ## On characters -/

def escapeChar (c : Char) : List Char :=
  match c with
  | '"' => ['\\', '"']
  | '\\' => ['\\', '\\']
  | '\n' => ['\\', 'n']
  | _ => [c]

def escape (value : List Char) : List Char := value.flatMap escapeChar

/-- Reads escapes. A backslash in front of any other character, or at the end,
stands for itself. -/
def unescape : List Char → List Char
  | '\\' :: '"' :: rest => '"' :: unescape rest
  | '\\' :: '\\' :: rest => '\\' :: unescape rest
  | '\\' :: 'n' :: rest => '\n' :: unescape rest
  | '\\' :: c :: rest => '\\' :: c :: unescape rest
  | c :: rest => c :: unescape rest
  | [] => []

@[simp] theorem escape_cons (c : Char) (value : List Char) :
    escape (c :: value) = escapeChar c ++ escape value := rfl

theorem escapeChar_of_ne {c : Char} (quote : c ≠ '"') (backslash : c ≠ '\\') (feed : c ≠ '\n') :
    escapeChar c = [c] := by
  unfold escapeChar
  split
  · exact absurd rfl quote
  · exact absurd rfl backslash
  · exact absurd rfl feed
  · rfl

/-- A character that is no backslash is read as it stands. -/
theorem unescape_cons_of_ne {c : Char} (rest : List Char) (backslash : c ≠ '\\') :
    unescape (c :: rest) = c :: unescape rest := by
  rw [unescape.eq_def]
  split <;> simp_all

/-! ## On bytes -/

/-- The replacement of a byte that is escaped. -/
def escapeByte? (b : UInt8) : Option Bytes :=
  if b = 0x22 then some [0x5c, 0x22]
  else if b = 0x5c then some [0x5c, 0x5c]
  else if b = 0x0a then some [0x5c, 0x6e]
  else none

/-- Goes over a value with a run of bytes that are still to be copied, last
byte first. An escaped byte flushes the run and writes the replacement. -/
def escapeAfter (run : Bytes) : Bytes → Bytes
  | [] => run.reverse
  | b :: rest =>
    match escapeByte? b with
    | some replacement => run.reverse ++ replacement ++ escapeAfter [] rest
    | none => escapeAfter (b :: run) rest

def escapeBytes (value : Bytes) : Bytes := escapeAfter [] value

/-- The run that is still to be copied comes out in front. -/
theorem escapeAfter_eq (run value : Bytes) :
    escapeAfter run value = run.reverse ++ escapeBytes value := by
  induction value generalizing run with
  | nil => simp [escapeAfter, escapeBytes]
  | cons b rest ih =>
    rw [escapeBytes, escapeAfter, escapeAfter]
    cases escapeByte? b with
    | some replacement => simp
    | none => rw [ih (b :: run), ih [b]]; simp

/-- Every byte is escaped or copied by itself. -/
theorem escapeBytes_cons (b : UInt8) (rest : Bytes) :
    escapeBytes (b :: rest) = (escapeByte? b).getD [b] ++ escapeBytes rest := by
  rw [escapeBytes, escapeAfter]
  cases escapeByte? b with
  | some replacement => simp [escapeBytes]
  | none => simp [escapeAfter_eq [b]]

/-! ## In a buffer -/

/-- Goes over the rest of a value from a position on. The bytes from `start` up
to the position are still to be copied. -/
def writeEscapedFrom (value out : Bytes) (start position : Nat) : Bytes → Bytes
  | [] => out ++ value.drop start
  | b :: rest =>
    match escapeByte? b with
    | some replacement =>
      writeEscapedFrom value (out ++ value.extract start position ++ replacement) (position + 1)
        (position + 1) rest
    | none => writeEscapedFrom value out start (position + 1) rest

/-- Appends an escaped value to a buffer. -/
def writeEscaped (out value : Bytes) : Bytes := writeEscapedFrom value out 0 0 value

/-- The range that is still to be copied is the pending run. -/
theorem writeEscapedFrom_eq (front rest out : Bytes) {start : Nat} (within : start ≤ front.length) :
    writeEscapedFrom (front ++ rest) out start front.length rest
      = out ++ escapeAfter (front.drop start).reverse rest := by
  induction rest generalizing front out start with
  | nil => simp [writeEscapedFrom, escapeAfter]
  | cons b rest ih =>
    have longer : (front ++ [b]).length = front.length + 1 := by simp
    have regroup : front ++ b :: rest = (front ++ [b]) ++ rest := by simp
    rw [writeEscapedFrom, escapeAfter]
    cases escapeByte? b with
    | some replacement =>
      have pending : (front ++ b :: rest).extract start front.length = front.drop start := by
        rw [List.extract_eq_take_drop, List.drop_append_of_le_length within,
          List.take_append_of_le_length (by simp), List.take_of_length_le (by simp)]
      have beyond : (front ++ [b]).drop (front.length + 1) = [] := by simp
      simp only [pending]
      rw [regroup, ← longer, ih (front ++ [b]) _ (Nat.le_refl _), longer, beyond]
      simp
    | none =>
      simp only
      rw [regroup, ← longer, ih (front ++ [b]) out (by simp; omega),
        List.drop_append_of_le_length within]
      simp

/-- What is written goes behind the content of the buffer. -/
theorem writeEscaped_eq (out value : Bytes) : writeEscaped out value = out ++ escapeBytes value :=
  writeEscapedFrom_eq [] value out (Nat.le_refl 0)

end GaugeExporter.Exposition
