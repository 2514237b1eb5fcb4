import Folio.Text.Blank
import Folio.Text.Decimal

/-!
# Integers in writing

An integer is written with decimal digits of any script, up to 4300 of them, with an optional sign
and blanks around it; single low lines may stand between digits. The separators of files, groups,
records and units are no blanks here.
-/

namespace Folio.Number

open Text

/-- The digits of a number with low lines between them. -/
def digitGroups? : List Char → Option (List Char)
  | [] => none
  | [c] => if isDecimal c then some [c] else none
  | c :: '_' :: rest => if isDecimal c then (digitGroups? rest).map (c :: ·) else none
  | c :: rest => if isDecimal c then (digitGroups? rest).map (c :: ·) else none

/-- The most digits that an integer may be written with. -/
def mostDigits : Nat := 4300

/-- The number that digits write, unless they are too many. -/
def ofDigits? (digits : List Char) : Option Nat :=
  if digits.length ≤ mostDigits then some (digitsValue digits) else none

/-- The natural number that digits write. -/
def readNat? (cs : List Char) : Option Nat := (digitGroups? cs).bind ofDigits?

/-- Whether a character may stand around a number. -/
def isPadding (c : Char) : Bool := isBlank c && !(0x1C ≤ c.toNat && c.toNat ≤ 0x1F)

/-- The integer that a text writes. -/
def readInt? (cs : List Char) : Option Int :=
  match trimWhile isPadding cs with
  | '-' :: rest => (readNat? rest).map fun n => -(n : Int)
  | '+' :: rest => (readNat? rest).map fun n => (n : Int)
  | cs => (readNat? cs).map fun n => (n : Int)

end Folio.Number
