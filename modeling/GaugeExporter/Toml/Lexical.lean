import GaugeExporter.Decimal.Numeral
import GaugeExporter.Toml.DateTime.Reader
import GaugeExporter.Toml.Value

/-!
# Words of a configuration document

Readers for layout, strings, keys and scalars. A reader takes characters and
gives what it read with the characters behind it. `escape?_shorter` is what the
string readers recurse on: an escape takes at least one character.
-/

namespace GaugeExporter.Toml

open GaugeExporter.Binary (Double)
open GaugeExporter (Decimal)

abbrev Reader (α : Type) := List Char → Option (α × List Char)

/-! ## Layout -/

def isSpace (c : Char) : Bool := c == ' ' || c == '\t'

/-- Any character but control characters; the tab is allowed. -/
def isPlain (c : Char) : Bool := c == '\t' || (0x20 ≤ c.toNat && c.toNat != 0x7f)

def skipSpaces (cs : List Char) : List Char := cs.dropWhile isSpace

def skipComment : List Char → List Char
  | '#' :: rest => rest.dropWhile isPlain
  | cs => cs

/-- Skips the rest of a line that holds nothing more than a comment. -/
def lineEnd? (cs : List Char) : Option (List Char) :=
  match skipComment (skipSpaces cs) with
  | [] => some []
  | '\n' :: rest => some rest
  | '\r' :: '\n' :: rest => some rest
  | _ => none

/-- Skips blanks, line breaks and comments. The flag says that the text starts
inside a comment, which has to end with a line break. -/
def skipLayout? : Bool → List Char → Option (List Char)
  | true, [] => none
  | false, [] => some []
  | true, '\n' :: rest => skipLayout? false rest
  | true, '\r' :: '\n' :: rest => skipLayout? false rest
  | true, c :: rest => if isPlain c then skipLayout? true rest else none
  | false, '\r' :: '\n' :: rest => skipLayout? false rest
  | false, '#' :: rest => skipLayout? true rest
  | false, c :: rest =>
    if isSpace c || c == '\n' then skipLayout? false rest else some (c :: rest)

/-! ## Strings -/

def hexDigit? (c : Char) : Option Nat :=
  if c.isDigit then some (Decimal.digitValue c)
  else if 'a' ≤ c ∧ c ≤ 'f' then some (c.toNat - 'a'.toNat + 10)
  else if 'A' ≤ c ∧ c ≤ 'F' then some (c.toNat - 'A'.toNat + 10)
  else none

def hexNumber? (cs : List Char) : Option Nat :=
  cs.foldlM (fun n c => (hexDigit? c).map (16 * n + ·)) 0

/-- The character that hexadecimal digits name; surrogates and numbers beyond
the last code point name none. -/
def codePoint? (cs : List Char) : Option Char := do
  let n ← hexNumber? cs
  if n.isValidChar then some (Char.ofNat n) else none

def letterEscape? : Char → Option Char
  | 'b' => some '\x08'
  | 't' => some '\t'
  | 'n' => some '\n'
  | 'f' => some '\x0c'
  | 'r' => some '\r'
  | '"' => some '"'
  | '\\' => some '\\'
  | _ => none

def codeEscape? (width : Nat) (cs : List Char) : Option (Char × List Char) :=
  if cs.length < width then none else (codePoint? (cs.take width)).map (·, cs.drop width)

def escape? : Reader Char
  | 'u' :: rest => codeEscape? 4 rest
  | 'U' :: rest => codeEscape? 8 rest
  | c :: rest => (letterEscape? c).map (·, rest)
  | [] => none

theorem codeEscape?_length_le {width : Nat} {cs rest : List Char} {c : Char}
    (h : codeEscape? width cs = some (c, rest)) : rest.length ≤ cs.length := by
  unfold codeEscape? at h
  split at h
  · cases h
  · obtain ⟨_, _, hr⟩ := Option.map_eq_some_iff.mp h
    obtain ⟨_, rfl⟩ := Prod.mk.inj hr
    rw [List.length_drop]
    exact Nat.sub_le _ _

theorem escape?_shorter {cs rest : List Char} {c : Char} (h : escape? cs = some (c, rest)) :
    rest.length < cs.length := by
  unfold escape? at h
  split at h
  · exact Nat.lt_succ_of_le (codeEscape?_length_le h)
  · exact Nat.lt_succ_of_le (codeEscape?_length_le h)
  · obtain ⟨_, _, hr⟩ := Option.map_eq_some_iff.mp h
    obtain ⟨_, rfl⟩ := Prod.mk.inj hr
    exact Nat.lt_succ_self _
  · cases h

def push (c : Char) (read : List Char × List Char) : List Char × List Char := (c :: read.1, read.2)

/-- The content of a basic string, from behind its opening quote. -/
def basicBody? (cs : List Char) : Option (List Char × List Char) :=
  match cs with
  | [] => none
  | '"' :: rest => some ([], rest)
  | '\\' :: rest =>
    match h : escape? rest with
    | none => none
    | some (c, after) =>
      have := escape?_shorter h
      (basicBody? after).map (push c)
  | c :: rest => if isPlain c then (basicBody? rest).map (push c) else none
termination_by cs.length
decreasing_by
  · simp only [List.length_cons]; omega
  · simp

def skipBreaks : List Char → List Char
  | [] => []
  | '\r' :: '\n' :: rest => skipBreaks rest
  | c :: rest => if isSpace c || c == '\n' then skipBreaks rest else c :: rest

/-- Skips a line break with the blanks in front of it and all blanks and line
breaks behind it; there has to be one. -/
def continuation? (cs : List Char) : Option (List Char) :=
  match skipSpaces cs with
  | '\n' :: rest => some (skipBreaks rest)
  | '\r' :: '\n' :: rest => some (skipBreaks rest)
  | _ => none

theorem length_skipBreaks_le (cs : List Char) : (skipBreaks cs).length ≤ cs.length := by
  induction cs using skipBreaks.induct with
  | case1 => exact Nat.le_refl _
  | case2 rest ih => rw [skipBreaks]; exact Nat.le_succ_of_le (Nat.le_succ_of_le ih)
  | case3 c rest other blank ih =>
    rw [skipBreaks.eq_3 c rest other, if_pos blank]; exact Nat.le_succ_of_le ih
  | case4 c rest other solid =>
    simp only [skipBreaks.eq_3 c rest other, if_neg solid, Nat.le_refl]

theorem continuation?_shorter {cs rest : List Char} (h : continuation? cs = some rest) :
    rest.length < cs.length := by
  have spaces : (skipSpaces cs).length ≤ cs.length :=
    (List.dropWhile_sublist isSpace).length_le
  unfold continuation? at h
  split at h
  · rename_i tail ht
    simp only [Option.some.injEq] at h; subst h
    rw [ht, List.length_cons] at spaces
    have := length_skipBreaks_le tail
    omega
  · rename_i tail ht
    simp only [Option.some.injEq] at h; subst h
    rw [ht, List.length_cons, List.length_cons] at spaces
    have := length_skipBreaks_le tail
    omega
  · cases h

/-- The content of a multi-line basic string, from behind its opening quotes. Up
to two quotes in front of the closing ones belong to the content. -/
def multilineBody? (cs : List Char) : Option (List Char × List Char) :=
  match cs with
  | [] => none
  | '"' :: '"' :: '"' :: '"' :: '"' :: rest => some (['"', '"'], rest)
  | '"' :: '"' :: '"' :: '"' :: rest => some (['"'], rest)
  | '"' :: '"' :: '"' :: rest => some ([], rest)
  | '\\' :: rest =>
    match h : escape? rest with
    | some (c, after) =>
      have := escape?_shorter h
      (multilineBody? after).map (push c)
    | none =>
      match h' : continuation? rest with
      | some after =>
        have := continuation?_shorter h'
        multilineBody? after
      | none => none
  | '\r' :: '\n' :: rest => (multilineBody? rest).map (push '\n')
  | c :: rest =>
    if isPlain c || c == '\n' then (multilineBody? rest).map (push c) else none
termination_by cs.length
decreasing_by
  · simp only [List.length_cons]; omega
  · simp only [List.length_cons]; omega
  · simp only [List.length_cons]; omega
  · simp

/-- The content of a literal string, from behind its opening quote. -/
def literalBody? : List Char → Option (List Char × List Char)
  | [] => none
  | '\'' :: rest => some ([], rest)
  | c :: rest => if isPlain c then (literalBody? rest).map (push c) else none

/-- The content of a multi-line literal string, from behind its opening quotes. -/
def multilineLiteralBody? : List Char → Option (List Char × List Char)
  | [] => none
  | '\'' :: '\'' :: '\'' :: '\'' :: '\'' :: rest => some (['\'', '\''], rest)
  | '\'' :: '\'' :: '\'' :: '\'' :: rest => some (['\''], rest)
  | '\'' :: '\'' :: '\'' :: rest => some ([], rest)
  | '\r' :: '\n' :: rest => (multilineLiteralBody? rest).map (push '\n')
  | c :: rest =>
    if isPlain c || c == '\n' then (multilineLiteralBody? rest).map (push c) else none

/-- Skips the line break right behind the opening quotes of a multi-line
string. -/
def skipOpeningBreak : List Char → List Char
  | '\n' :: rest => rest
  | '\r' :: '\n' :: rest => rest
  | cs => cs

def string? : Reader (List Char)
  | '"' :: '"' :: '"' :: rest => multilineBody? (skipOpeningBreak rest)
  | '"' :: rest => basicBody? rest
  | '\'' :: '\'' :: '\'' :: rest => multilineLiteralBody? (skipOpeningBreak rest)
  | '\'' :: rest => literalBody? rest
  | _ => none

/-! ## Keys -/

def isKeyChar (c : Char) : Bool := c.isAlphanum || c == '_' || c == '-'

def keyPart? : Reader String
  | '"' :: rest => (basicBody? rest).map fun (s, cs) => (String.ofList s, cs)
  | '\'' :: rest => (literalBody? rest).map fun (s, cs) => (String.ofList s, cs)
  | cs =>
    let word := cs.takeWhile isKeyChar
    if word = [] then none else some (String.ofList word, cs.dropWhile isKeyChar)

/-- Reads the parts of a key with dots between them, at most as many as the
bound, with blanks around every part. -/
def keyParts? : Nat → Reader (List String)
  | 0, _ => none
  | bound + 1, cs =>
    match keyPart? (skipSpaces cs) with
    | none => none
    | some (part, rest) =>
      match skipSpaces rest with
      | '.' :: more => (keyParts? bound more).map fun (parts, tail) => (part :: parts, tail)
      | tail => some ([part], tail)

/-- Keys have at most this many parts, and values are nested at most this
deep. -/
def depthLimit : Nat := 79

def key? : Reader (List String) := keyParts? depthLimit

/-! ## Scalars -/

def isScalarChar (c : Char) : Bool :=
  c.isAlphanum || c == '_' || c == '+' || c == '-' || c == '.' || c == ':'

/-- The digits of a nonempty run in which an underscore may stand between two
digits. -/
def ungroup? (isDigit : Char → Bool) : List Char → Option (List Char)
  | [] => none
  | [c] => if isDigit c then some [c] else none
  | c :: '_' :: d :: rest =>
    if isDigit c then (ungroup? isDigit (d :: rest)).map (c :: ·) else none
  | c :: rest => if isDigit c then (ungroup? isDigit rest).map (c :: ·) else none

def wholeDigits? (cs : List Char) : Option (List Char) :=
  match ungroup? Char.isDigit cs with
  | some ('0' :: _ :: _) => none
  | digits => digits

def inRange (n : Int) : Bool := decide (-0x8000000000000000 ≤ n ∧ n < 0x8000000000000000)

def radix? (base : Nat) (isDigit : Char → Bool) (cs : List Char) : Option Int := do
  let digits ← ungroup? isDigit cs
  let n ← digits.foldlM (fun n c => (hexDigit? c).map (base * n + ·)) 0
  if inRange n then some n else none

def integer? : List Char → Option Int
  | '0' :: 'x' :: rest => radix? 16 (fun c => (hexDigit? c).isSome) rest
  | '0' :: 'o' :: rest => radix? 8 (fun c => '0' ≤ c && c ≤ '7') rest
  | '0' :: 'b' :: rest => radix? 2 (fun c => c == '0' || c == '1') rest
  | cs => do
    let (negative, body) := Decimal.sign cs
    let digits ← wholeDigits? body
    let n : Int := Decimal.ofDigits digits
    let n := if negative then -n else n
    if inRange n then some n else none

def isGroupChar (c : Char) : Bool := c.isDigit || c == '_'

/-- The exponent of a floating point number, if there is one. -/
def exponent? : List Char → Option (Option Int)
  | [] => some none
  | c :: rest =>
    if c = 'e' ∨ c = 'E' then
      let (negative, body) := Decimal.sign rest
      (ungroup? Char.isDigit body).map fun digits =>
        let n : Int := Decimal.ofDigits digits
        some (if negative then -n else n)
    else none

/-- The digits behind the point of a floating point number, if there is one. -/
def fractionDigits? : List Char → Option (Option (List Char) × List Char)
  | '.' :: rest =>
    (ungroup? Char.isDigit (rest.takeWhile isGroupChar)).map fun digits =>
      (some digits, rest.dropWhile isGroupChar)
  | cs => some (none, cs)

/-- Reads a whole floating point number. It has a fraction or an exponent, and
it must not be so large that it rounds to positive infinity. -/
def float? (cs : List Char) : Option Double :=
  let (negative, body) := Decimal.sign cs
  if body = "inf".toList then some (.infinite negative)
  else if body = "nan".toList then some .nan
  else do
    let whole ← wholeDigits? (body.takeWhile isGroupChar)
    let (fraction, tail) ← fractionDigits? (body.dropWhile isGroupChar)
    let power ← exponent? tail
    if fraction.isNone ∧ power.isNone then none
    else
      let places := fraction.getD []
      let x := Decimal.toDouble negative
        ⟨Decimal.ofDigits (whole ++ places), power.getD 0 - (places.length : Nat)⟩
      -- Only the positive side is refused; a large negative number is infinite.
      if x = .infinite false then none else some x

def word? (cs : List Char) : Option Value :=
  if cs = "true".toList then some (.boolean true)
  else if cs = "false".toList then some (.boolean false)
  else
    match integer? cs, float? cs, DateTime.ofText? cs with
    | some n, _, _ => some (.integer n)
    | none, some x, _ => some (.float x)
    | none, none, some d => some (.dateTime d)
    | none, none, none => none

/-- Reads a word, and behind a date the time that follows after one blank. -/
def scalar? (cs : List Char) : Option (Value × List Char) :=
  let word := cs.takeWhile isScalarChar
  let rest := cs.dropWhile isScalarChar
  match DateTime.ofText? word, rest with
  -- What follows the blank may also be a comment; then the date stands alone.
  | some (.date d), ' ' :: after =>
    match DateTime.ofText? (word ++ ' ' :: after.takeWhile isScalarChar) with
    | some t => some (.dateTime t, after.dropWhile isScalarChar)
    | none => some (.dateTime (.date d), rest)
  | _, _ => (word? word).map (·, rest)

end GaugeExporter.Toml
