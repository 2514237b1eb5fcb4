import Folio.Text.Decimal
import Folio.Value.Basic

/-!
# Values as JSON

Reading and writing values in JSON. A number is an integer unless it has a point or an exponent,
mappings keep the order of their keys, and a key that comes again replaces the value and keeps its
place.
-/

namespace Folio.Value.Json

open Text

/-- Skips the blanks of JSON. -/
def skip (cs : List Char) : List Char :=
  cs.dropWhile fun c => c = ' ' || c = '\n' || c = '\r' || c = '\t'

/-- The value of a hexadecimal digit. -/
def hexValue? (c : Char) : Option Nat :=
  if '0' ≤ c ∧ c ≤ '9' then some (c.toNat - 48)
  else if 'a' ≤ c ∧ c ≤ 'f' then some (c.toNat - 87)
  else if 'A' ≤ c ∧ c ≤ 'F' then some (c.toNat - 55)
  else none

/-- Four hexadecimal digits. -/
def unit? : List Char → Option (Nat × List Char)
  | a :: b :: c :: d :: rest => do
    let a ← hexValue? a
    let b ← hexValue? b
    let c ← hexValue? c
    let d ← hexValue? d
    some (((a * 16 + b) * 16 + c) * 16 + d, rest)
  | _ => none

/-- The character of a short escape. -/
def shortEscape? : Char → Option Char
  | '"' => some '"'
  | '\\' => some '\\'
  | '/' => some '/'
  | 'b' => some '\x08'
  | 'f' => some '\x0c'
  | 'n' => some '\n'
  | 'r' => some '\r'
  | 't' => some '\t'
  | _ => none

/-- The rest of a text after its opening quote. -/
def textAfter : Nat → List Char → Option (List Char × List Char)
  | 0, _ => none
  | _ + 1, [] => none
  | _ + 1, '"' :: rest => some ([], rest)
  | fuel + 1, '\\' :: 'u' :: rest => do
    let (high, rest) ← unit? rest
    match rest with
    | '\\' :: 'u' :: tail =>
      let (low, after) ← unit? tail
      if 0xD800 ≤ high ∧ high < 0xDC00 ∧ 0xDC00 ≤ low ∧ low < 0xE000 then
        let (cs, rest) ← textAfter fuel after
        some (Char.ofNat (0x10000 + (high - 0xD800) * 0x400 + (low - 0xDC00)) :: cs, rest)
      else
        let (cs, rest) ← textAfter fuel ('\\' :: 'u' :: tail)
        some (charOrHalf high :: cs, rest)
    | rest =>
      let (cs, rest) ← textAfter fuel rest
      some (charOrHalf high :: cs, rest)
  | fuel + 1, '\\' :: c :: rest => do
    let c ← shortEscape? c
    let (cs, rest) ← textAfter fuel rest
    some (c :: cs, rest)
  | fuel + 1, c :: rest => do
    let (cs, rest) ← textAfter fuel rest
    some (c :: cs, rest)

/-- Digits at the front and what follows them. -/
def digits (cs : List Char) : List Char × List Char := cs.span Char.isDigit

/-- A number at the front. -/
def number? (cs : List Char) : Option (Scalar × List Char) :=
  let (negative, cs) := match cs with
    | '-' :: rest => (true, rest)
    | cs => (false, cs)
  let (whole, cs) := digits cs
  let (fraction, cs) := match cs with
    | '.' :: rest => let (f, rest) := digits rest; (some f, rest)
    | cs => (none, cs)
  let (power, cs) := match cs with
    | e :: rest =>
      if e = 'e' ∨ e = 'E' then
        let (sign, rest) := match rest with
          | '-' :: rest => (true, rest)
          | '+' :: rest => (false, rest)
          | rest => (false, rest)
        let (p, rest) := digits rest
        (some (if sign then -(digitsValue p : Int) else (digitsValue p : Int)), rest)
      else (none, e :: rest)
    | [] => (none, [])
  if whole.isEmpty then none
  else if fraction.isNone && power.isNone then
    let n : Int := digitsValue whole
    some (.int (if negative then -n else n), cs)
  else
    let f := fraction.getD []
    some (.float (.ofDecimal negative (digitsValue (whole ++ f)) (power.getD 0 - f.length)), cs)

/-- Puts an entry, replacing the value of a key that is there. -/
def putEntry (key : Key) (value : Value) : List (Key × Value) → List (Key × Value)
  | [] => [(key, value)]
  | (k, v) :: rest => if k = key then (key, value) :: rest else (k, v) :: putEntry key value rest

/-- A word at the front stands for a scalar. -/
def word? (cs : List Char) : Option (Scalar × List Char) :=
  let named (word : String) (s : Scalar) := (after? word.toList cs).map fun rest => (s, rest)
  named "null" .null <|> named "true" (.bool true) <|> named "false" (.bool false) <|>
    named "NaN" (.float .nan) <|> named "Infinity" (.float (.infinite false)) <|>
    named "-Infinity" (.float (.infinite true)) <|> number? cs

mutual

/-- A value at the front; the fuel bounds the number of characters and parts. -/
def value? : Nat → List Char → Option (Value × List Char)
  | 0, _ => none
  | fuel + 1, cs =>
    match skip cs with
    | '"' :: rest => (textAfter fuel rest).map fun (s, rest) =>
        (.text (String.ofList s), rest)
    | '[' :: rest =>
      match skip rest with
      | ']' :: rest => some (.list [], rest)
      | rest => (items? fuel rest).map fun (vs, rest) => (.list vs, rest)
    | '\x7b' :: rest =>
      match skip rest with
      | '\x7d' :: rest => some (.map [], rest)
      | rest => (entries? fuel [] rest).map fun (es, rest) => (.map es, rest)
    | cs => (word? cs).map fun (s, rest) => (.scalar s, rest)

/-- The items up to the closing bracket. -/
def items? : Nat → List Char → Option (List Value × List Char)
  | 0, _ => none
  | fuel + 1, cs => do
    let (v, rest) ← value? fuel cs
    match skip rest with
    | ',' :: rest =>
      let (vs, rest) ← items? fuel rest
      some (v :: vs, rest)
    | ']' :: rest => some ([v], rest)
    | _ => none

/-- The entries up to the closing brace, after those already read. -/
def entries? : Nat → List (Key × Value) → List Char →
    Option (List (Key × Value) × List Char)
  | 0, _, _ => none
  | fuel + 1, before, cs => do
    let (key, rest) ← match skip cs with
      | '"' :: rest => textAfter fuel rest
      | _ => none
    let rest ← match skip rest with
      | ':' :: rest => some rest
      | _ => none
    let (v, rest) ← value? fuel rest
    let entries := putEntry (.text (String.ofList key)) v before
    match skip rest with
    | ',' :: rest => entries? fuel entries rest
    | '\x7d' :: rest => some (entries, rest)
    | _ => none

end

/-- The value that a text writes. -/
def read? (s : String) : Option Value :=
  let cs := s.toList
  match value? (2 * cs.length + 2) cs with
  | some (v, rest) => if (skip rest).isEmpty then some v else none
  | none => none

/-- One character inside a text. -/
def writtenChar (c : Char) : String :=
  match c with
  | '"' => "\\\""
  | '\\' => "\\\\"
  | '\n' => "\\n"
  | '\r' => "\\r"
  | '\t' => "\\t"
  | '\x08' => "\\b"
  | '\x0c' => "\\f"
  | c => if c.toNat < 0x20 then "\\u" ++ hex 4 c.toNat else String.singleton c

/-- A text between double quotes. -/
def writtenText (s : String) : String := "\"" ++ String.join (s.toList.map writtenChar) ++ "\""

/-- The JSON of a scalar. -/
def writtenScalar : Scalar → String
  | .null => "null"
  | .bool b => if b then "true" else "false"
  | .int n => toString n
  | .float .nan => "NaN"
  | .float (.infinite negative) => if negative then "-Infinity" else "Infinity"
  | .float x => x.text
  | .text s => writtenText s
  | .date d => writtenText d.iso
  | .moment m => writtenText m.iso

/-- The text that stands for a key: that of its JSON, if it is no text. -/
def keyText : Key → String
  | .scalar (.text s) => s
  | .scalar s => writtenScalar s
  | .group parts => "[" ++ joinWith ", " (parts.map writtenScalar) ++ "]"

mutual

/-- The JSON of a value. -/
def write : Value → String
  | .scalar s => writtenScalar s
  | .list items => "[" ++ joinWith ", " (writeItems items) ++ "]"
  | .map entries => "\x7b" ++ joinWith ", " (writeEntries entries) ++ "\x7d"

/-- The JSON of the items of a list. -/
def writeItems : List Value → List String
  | [] => []
  | v :: rest => write v :: writeItems rest

/-- The JSON of the entries of a mapping. -/
def writeEntries : List (Key × Value) → List String
  | [] => []
  | (k, v) :: rest =>
    (writtenText (keyText k) ++ ": " ++ write v) :: writeEntries rest

end

end Folio.Value.Json
