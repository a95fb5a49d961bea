import GaugeExporter.Text.Visible

/-!
# Quoted text in messages

`quoted` puts a string between double quotes. A quote, a backslash and the
usual control characters get short escapes, and every other character that does
not show by itself is written by its code point. Apostrophes stay as they are.
-/

namespace GaugeExporter.Text

/-- The lower-case hexadecimal digits of a code point, without leading zeros. -/
def hexadecimal (n : Nat) : List Char := Nat.toDigits 16 n

def quotedChar (c : Char) : List Char :=
  match c with
  | '\x00' => ['\\', '0']
  | '\t' => ['\\', 't']
  | '\r' => ['\\', 'r']
  | '\n' => ['\\', 'n']
  | '"' => ['\\', '"']
  | '\\' => ['\\', '\\']
  | _ =>
    if isVisible c then [c]
    else '\\' :: 'u' :: '{' :: hexadecimal c.toNat ++ ['}']

def quoted (s : String) : String :=
  String.ofList ('"' :: s.toList.flatMap quotedChar ++ ['"'])

end GaugeExporter.Text
