/-!
# Powers

The powers of the two bases that numbers are held and written in.
-/

namespace Folio.Number

/-- A power of two. -/
def pow2 (exponent : Nat) : Nat := Nat.pow 2 exponent

/-- A power of ten. -/
def pow10 (exponent : Nat) : Nat := Nat.pow 10 exponent

end Folio.Number
