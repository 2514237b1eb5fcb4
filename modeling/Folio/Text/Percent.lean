import Folio.Number.Power
import Folio.Text.Decimal

/-!
# Percent-encoded texts

A percent sign with two hexadecimal digits stands for a byte. The bytes of a stretch of plain
characters are read as UTF-8; what is no UTF-8 becomes replacement characters, one for each longest
beginning of a well-formed sequence or else for each byte. Any other character stands for itself.
-/

namespace Folio.Text

/-- A byte, or a character that is none. -/
inductive ByteOrChar
  | byte (n : Nat)
  | char (c : Char)
deriving DecidableEq

/-- The value of a hexadecimal digit. -/
def hexDigit? (c : Char) : Option Nat :=
  if '0' ≤ c ∧ c ≤ '9' then some (c.toNat - 48)
  else if 'a' ≤ c ∧ c ≤ 'f' then some (c.toNat - 87)
  else if 'A' ≤ c ∧ c ≤ 'F' then some (c.toNat - 55)
  else none

/-- One character of a percent-encoded text. -/
def plainByte (c : Char) : ByteOrChar := if c.toNat < 0x80 then .byte c.toNat else .char c

/-- The byte that a percent sign and two further characters stand for. -/
def escapedByte? (c high low : Char) : Option Nat :=
  if c = '%' then
    match hexDigit? high, hexDigit? low with
    | some h, some l => some (16 * h + l)
    | _, _ => none
  else none

/-- The bytes and characters of a percent-encoded text. -/
def percentBytes : List Char → List ByteOrChar
  | [] => []
  | [c] => [plainByte c]
  | [c, d] => [plainByte c, plainByte d]
  | c :: high :: low :: rest =>
    match escapedByte? c high low with
    | some n => .byte n :: percentBytes rest
    | none => plainByte c :: percentBytes (high :: low :: rest)

/-- How many bytes follow a leading byte, and between which bounds the first of them lies. -/
def leadOf? (n : Nat) : Option (Nat × Nat × Nat) :=
  if 0xC2 ≤ n ∧ n ≤ 0xDF then some (1, 0x80, 0xBF)
  else if n = 0xE0 then some (2, 0xA0, 0xBF)
  else if n = 0xED then some (2, 0x80, 0x9F)
  else if 0xE1 ≤ n ∧ n ≤ 0xEF then some (2, 0x80, 0xBF)
  else if n = 0xF0 then some (3, 0x90, 0xBF)
  else if n = 0xF4 then some (3, 0x80, 0x8F)
  else if 0xF1 ≤ n ∧ n ≤ 0xF3 then some (3, 0x80, 0xBF)
  else none

/-- The bytes at the front that may follow: at most `count`, the first between the bounds. -/
def following : Nat → Nat → Nat → List ByteOrChar → List Nat
  | count + 1, low, high, .byte n :: rest =>
    if low ≤ n ∧ n ≤ high then n :: following count 0x80 0xBF rest else []
  | _, _, _, _ => []

/-- The replacement character. -/
def replacement : Char := Char.ofNat 0xFFFD

/-- The character that a leading byte and those after it give, and how many of those it takes. -/
def sequence (lead : Nat) (rest : List ByteOrChar) : Char × Nat :=
  if lead < 0x80 then (Char.ofNat lead, 0)
  else match leadOf? lead with
    | none => (replacement, 0)
    | some (count, low, high) =>
      let taken := following count low high rest
      if taken.length = count then
        let first := lead % Number.pow2 (6 - count)
        (Char.ofNat (taken.foldl (fun v n => 64 * v + (n - 0x80)) first), count)
      else (replacement, taken.length)

/-- Reads bytes as UTF-8 after skipping some. -/
def decodeAfter : Nat → List ByteOrChar → List Char
  | _, [] => []
  | skip + 1, _ :: rest => decodeAfter skip rest
  | 0, .char c :: rest => c :: decodeAfter 0 rest
  | 0, .byte n :: rest =>
    let (c, taken) := sequence n rest
    c :: decodeAfter taken rest

/-- The text that a percent-encoded text stands for. -/
def percentDecoded (s : String) : String :=
  String.ofList (decodeAfter 0 (percentBytes s.toList))

end Folio.Text
