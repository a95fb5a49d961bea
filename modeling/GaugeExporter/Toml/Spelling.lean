import GaugeExporter.Toml.Lexical

/-!
# Spelling of strings and keys

A string is spelled in the first form that needs no escape: between double
quotes, between apostrophes, then either of them tripled. A string that fits no
form is spelled between double quotes with escapes, tripled if it has a line
feed. Tabs do not stop a form from fitting, although the forms with double
quotes do escape them. Keys are bare where they can be.
-/

namespace GaugeExporter.Toml

/-! ## Characters -/

def isControl (c : Char) : Bool :=
  (decide (c.toNat < 0x20) && c != '\t' && c != '\n') || c.toNat == 0x7f

def hasThree (q : Char) : List Char → Bool
  | a :: b :: c :: rest => (a == q && b == q && c == q) || hasThree q (b :: c :: rest)
  | _ => false

def upperDigit (d : Nat) : Char :=
  if d < 10 then Char.ofNat ('0'.toNat + d) else Char.ofNat ('A'.toNat + (d - 10))

def codeEscape (n : Nat) : List Char :=
  ['\\', 'u', upperDigit (n / 4096 % 16), upperDigit (n / 256 % 16), upperDigit (n / 16 % 16),
    upperDigit (n % 16)]

/-- A character other than a quote or a line feed in a form with escapes. -/
def escaped (c : Char) : List Char :=
  match c with
  | '\x08' => ['\\', 'b']
  | '\t' => ['\\', 't']
  | '\x0c' => ['\\', 'f']
  | '\r' => ['\\', 'r']
  | '\\' => ['\\', '\\']
  | _ => if isControl c then codeEscape c.toNat else [c]

/-! ## Forms -/

def basicText : List Char → List Char
  | [] => []
  | '\n' :: rest => '\\' :: 'n' :: basicText rest
  | '"' :: rest => '\\' :: '"' :: basicText rest
  | c :: rest => escaped c ++ basicText rest

/-- The content between tripled double quotes, behind so many quotes in a row.
Every third quote in a row is escaped. -/
def multilineText : Nat → List Char → List Char
  | _, [] => []
  | quotes, c :: rest =>
    if c = '"' then
      if quotes = 2 then '\\' :: '"' :: multilineText 0 rest
      else '"' :: multilineText (quotes + 1) rest
    else if c = '\n' then '\n' :: multilineText 0 rest
    else escaped c ++ multilineText 0 rest

inductive Form where
  | basic
  | literal
  | multiline
  | multilineLiteral
  deriving DecidableEq, Repr

def formOf (s : List Char) : Form :=
  let control := s.any isControl
  let breaks := s.contains '\n'
  if !control && !breaks && !s.contains '\\' && !s.contains '"' then .basic
  else if !control && !breaks && !s.contains '\'' then .literal
  else if !control && !s.contains '\\' && !hasThree '"' s then .multiline
  else if !control && !hasThree '\'' s then .multilineLiteral
  else if breaks then .multiline
  else .basic

/-- The line break behind opening quotes: there if the string has one itself. -/
def openingBreak (s : List Char) : List Char := if s.contains '\n' then ['\n'] else []

def Form.spell : Form → List Char → List Char
  | .basic, s => '"' :: basicText s ++ ['"']
  | .literal, s => '\'' :: s ++ ['\'']
  | .multiline, s => ['"', '"', '"'] ++ openingBreak s ++ multilineText 0 s ++ ['"', '"', '"']
  | .multilineLiteral, s => ['\'', '\'', '\''] ++ openingBreak s ++ s ++ ['\'', '\'', '\'']

def stringText (s : String) : List Char := (formOf s.toList).spell s.toList

/-! ## Keys -/

def keyPartText (key : String) : List Char :=
  let s := key.toList
  let control := s.any fun c => isControl c || c == '\n'
  if !s.isEmpty && s.all isKeyChar then s
  else if !control && !s.contains '\\' && !s.contains '"' then Form.basic.spell s
  else if !control && !s.contains '\'' then Form.literal.spell s
  else Form.basic.spell s

def keyText : List String → List Char
  | [] => []
  | [part] => keyPartText part
  | part :: rest => keyPartText part ++ '.' :: keyText rest

end GaugeExporter.Toml
