import Folio.Text.Blank
import Folio.Yaml.Cursor
import Folio.Yaml.Tag

/-!
# What scalars mean

A scalar is made of its text by its tag. Decimal integers may start with zeros, binary, octal and
hexadecimal ones have a letter after a zero, and low lines among digits do not count. What is
written or tagged like a number or a day may still not be one.
-/

namespace Folio.Yaml

open Text

/-- The number that digits of a base write. -/
def valueInBase (base : Nat) (cs : List Char) : Nat :=
  cs.foldl (fun n c => base * n + (Value.Json.hexValue? c).getD 0) 0

/-- A text without the low lines in it. -/
def bare (cs : List Char) : List Char := cs.filter (· ≠ '_')

/-- The integer that digits of a base write after a sign. -/
def integer? (cs : List Char) : Option Int :=
  let (base, row) := baseOf cs
  if base = 10 then Number.readInt? cs
  else if isDigitRow base row then some (valueInBase base row)
  else none

/-- The integer that a text writes. -/
def integer (text : List Char) : Except Trouble Int :=
  if bare text = [] then .error .blankNumber
  else
    let (negative, cs) := signed (bare text)
    match integer? cs with
    | some n => .ok (if negative then -n else n)
    | none => .error .senseless

/-- The power of ten that an exponent at the end of a number writes. -/
def exponent? : List Char → Option Int
  | [] => some 0
  | e :: rest =>
    let (negative, digits) := signed rest
    if e ≠ 'e' ∨ digits.isEmpty || !digits.all Char.isDigit then none
    else
      let n : Int := digitsValue digits
      some (if negative then -n else n)

/-- The floating-point number that small letters write: a decimal with a point and an exponent, or
a word for infinity or for no number. -/
def decimal? (negative : Bool) (cs : List Char) : Option Number.Binary64 :=
  let s := String.ofList cs
  if s = "inf" ∨ s = "infinity" then some (.infinite negative)
  else if s = "nan" then some .nan
  else do
    let (whole, rest) := cs.span Char.isDigit
    let (fraction, rest) := match rest with
      | '.' :: rest => rest.span Char.isDigit
      | rest => ([], rest)
    let power ← exponent? rest
    if whole.isEmpty && fraction.isEmpty then none
    else some (.ofDecimal negative (digitsValue (whole ++ fraction)) (power - fraction.length))

/-- The floating-point number that a text writes. -/
def float (text : List Char) : Except Trouble Number.Binary64 :=
  let cs := (bare text).map Char.toLower
  if cs = [] then .error .blankNumber
  else
    let (negative, body) := signed cs
    if body = ".inf".toList then .ok (.infinite negative)
    else if body = ".nan".toList then .ok .nan
    else
      let (again, body) := signed (trimWhile Number.isPadding body)
      match decimal? (negative != again) body with
      | some x => .ok x
      | none => .error .senseless

/-- The millionths that the digits of a fraction write, rounded by the seventh digit, and whether
that makes a whole one. -/
def millionths (fraction : List Char) : Nat × Bool :=
  let n := digitsValue ((fraction ++ List.replicate 6 '0').take 6) +
    if fraction[6]?.any ('4' < ·) then 1 else 0
  (n % 1000000, 1000000 ≤ n)

/-- The day or moment that a text writes. -/
def time (text : List Char) : Except Trouble Scalar :=
  match time? text with
  | none => .error .malformed
  | some ⟨date, none⟩ => if date.isValid then .ok (.date date) else .error .senseless
  | some ⟨date, some c⟩ =>
    let (micro, carried) := millionths c.fraction
    let m : Moment :=
      { date, hour := c.hour, minute := c.minute, second := c.second, micro, zone := c.zone }
    let rounded := if carried then m.later else m
    if !m.isValid then .error .senseless
    else if rounded.isValid then .ok (.moment rounded)
    else .error .outOfRange

/-- The words for true, in small letters. -/
def trueWords : List String := ["true", "yes", "y", "on"]

/-- The words for false, in small letters. -/
def falseWords : List String := ["false", "no", "n", "off"]

/-- The truth value that a word stands for; case does not matter. -/
def truth (text : List Char) : Except Trouble Bool :=
  let s := String.ofList (text.map Char.toLower)
  if trueWords.contains s then .ok true
  else if falseWords.contains s then .ok false
  else .error .unknownWord

/-- The scalar that a text with a tag writes. -/
def scalarOf (tag : Tag) (text : List Char) : Except Trouble Scalar :=
  match tag with
  | .null => .ok .null
  | .bool => (truth text).map .bool
  | .int => (integer text).map .int
  | .float => (float text).map .float
  | .time => time text
  | .text => .ok (.text (String.ofList text))
  | _ => .error .malformed

end Folio.Yaml
