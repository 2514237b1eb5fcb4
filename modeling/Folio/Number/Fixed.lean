import Folio.Number.Binary64

/-!
# Numbers with a set number of decimals

A quotient written with a fixed number of decimals, rounded to the nearest, a half to the even
neighbour. The sign of a negative quotient stays even when all digits round to zero.
-/

namespace Folio.Number

/-- Natural digits, with zeros in front up to a width. -/
def padded (width n : Nat) : String :=
  let digits := Nat.toDigits 10 n
  String.ofList (List.replicate (width - digits.length) '0' ++ digits)

/-- A quotient with the given number of decimals. -/
def fixed (places : Nat) (negative : Bool) (num den : Nat) : String :=
  let scaled := roundDiv (num * pow10 places) den
  (if negative then "-" else "") ++ toString (scaled / pow10 places) ++ "." ++
    padded places (scaled % pow10 places)

/-- How much smaller, in percent with one decimal, a size is than an earlier one: the quotient, its
distance from one and the hundredfold are each rounded to double precision. -/
def percentSmaller (before after : Nat) : String :=
  if before = 0 then "0.0"
  else match Binary64.ofRatio false after before with
    | .finite _ m e =>
      let (num, den) := Binary64.ratio m e
      match Binary64.ofRatio (den < num) (max den num - min den num) den with
      | .finite negative m e =>
        let (num, den) := Binary64.ratio m e
        match Binary64.ofRatio negative (100 * num) den with
        | .finite negative m e =>
          let (num, den) := Binary64.ratio m e
          fixed 1 negative num den
        | other => if other = .infinite true then "-inf" else "inf"
      | other => if other = .infinite true then "-inf" else "inf"
    | _ => "-inf"

end Folio.Number
