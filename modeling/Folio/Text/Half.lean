/-!
# Halves of characters

Escapes can name halves of characters, of which a high and a low one make a character in some
encodings. A string holds whole characters only; a half is kept as a character of the last private
range that stands for it, and every half has a stand-in of its own. The quoted form of a text shows
the half again.
-/

namespace Folio.Text

/-- Whether a number is that of a half. -/
def isHalf (n : Nat) : Bool := 0xD800 ≤ n && n < 0xE000

/-- The number of the character that stands for a half. -/
def standIn (half : Nat) : Nat := half + 0x101800

/-- The character with a number, which may be that of a half. -/
def charOrHalf (n : Nat) : Char := Char.ofNat (if isHalf n then standIn n else n)

/-- The half that a character stands for. -/
def half? (c : Char) : Option Nat :=
  let half := c.toNat - standIn 0
  if isHalf half then some half else none

end Folio.Text
