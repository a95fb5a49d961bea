import GaugeExporter.Toml.Lexical
import GaugeExporter.Toml.Node

/-!
# Reading documents

A document is a sequence of statements, one a line: a key with its value, the
header of a table, or the header of one more table of an array. Arrays may span
lines and end in a comma; inline tables may not. `Entries.ofText?` reads a whole
document and gives its entries in document order, which still tell tables with
headers from values.
-/

namespace GaugeExporter.Toml

/-! ## Values -/

def pushItem {α : Type} (item : α) (read : List α × List Char) : List α × List Char :=
  (item :: read.1, read.2)

/-- The items of an array with a reader for one item, up to the closing
bracket. The fuel bounds their number. -/
def items? (item? : Reader Value) : Nat → Reader (List Value)
  | 0, _ => none
  | fuel + 1, cs =>
    match skipLayout? false cs with
    | none => none
    -- Also reached behind a comma: arrays may end in one.
    | some (']' :: rest) => some ([], rest)
    | some cs =>
      match item? cs with
      | none => none
      | some (v, rest) =>
        match skipLayout? false rest with
        | some (',' :: more) => (items? item? fuel more).map (pushItem v)
        | some (']' :: more) => some ([v], more)
        | _ => none

/-- Reads a key, an equals sign and a value, with blanks around the value. -/
def pair? (value? : Reader Value) : Reader (List String × Value)
  | cs =>
    match key? cs with
    | some (key, '=' :: rest) =>
      (value? (skipSpaces rest)).map fun (v, tail) => ((key, v), skipSpaces tail)
    | _ => none

/-- The pairs of an inline table with at least one, up to the closing brace. The
fuel bounds their number. -/
def pairs? (value? : Reader Value) : Nat → Reader (List (List String × Value))
  | 0, _ => none
  | fuel + 1, cs =>
    match pair? value? cs with
    | some (pair, ',' :: more) => (pairs? value? fuel more).map (pushItem pair)
    | some (pair, '}' :: more) => some ([pair], more)
    | _ => none

def inlineTable? (value? : Reader Value) : Reader Value
  | cs =>
    match skipSpaces cs with
    | '}' :: rest => some (.table [], rest)
    | body =>
      match pairs? value? body.length body with
      | none => none
      | some (pairs, rest) => (assignAll pairs).map fun entries => (.table (finished entries), rest)

def leaf? : Reader Value
  | cs =>
    match cs with
    | '"' :: _ | '\'' :: _ => (string? cs).map fun (s, rest) => (.string (String.ofList s), rest)
    | _ => scalar? cs

/-- Reads a value with at most so many brackets and braces around a scalar. -/
def value? : Nat → Reader Value
  | 0, cs => leaf? cs
  | levels + 1, cs =>
    match cs with
    | '[' :: rest =>
      (items? (value? levels) rest.length rest).map fun (items, tail) => (.array items, tail)
    | '{' :: rest => inlineTable? (value? levels) rest
    | _ => leaf? cs

/-! ## Documents -/

def statement? : Reader Statement
  | '[' :: '[' :: cs =>
    match key? cs with
    | some (path, ']' :: ']' :: rest) => (lineEnd? rest).map (.element path, ·)
    | _ => none
  | '[' :: cs =>
    match key? cs with
    | some (path, ']' :: rest) => (lineEnd? rest).map (.table path, ·)
    | _ => none
  | cs =>
    match pair? (value? depthLimit) cs with
    | some ((key, value), rest) => (lineEnd? rest).map (.pair key value, ·)
    | none => none

/-- Reads statements, empty lines and comments to the end of the text. The fuel
bounds the number of lines. -/
def statements? : Nat → List Char → Option (List Statement)
  | 0, _ => none
  | _ + 1, [] => some []
  | fuel + 1, cs =>
    match lineEnd? cs with
    | some rest => statements? fuel rest
    -- The line is neither empty nor a comment.
    | none =>
      match statement? (skipSpaces cs) with
      | some (statement, rest) => (statements? fuel rest).map (statement :: ·)
      | none => none

def skipMark : List Char → List Char
  | '\uFEFF' :: rest => rest
  | cs => cs

def Entries.ofText? (text : String) : Option Entries :=
  let cs := skipMark text.toList
  (statements? (cs.length + 1) cs).bind Entries.ofStatements?

end GaugeExporter.Toml
