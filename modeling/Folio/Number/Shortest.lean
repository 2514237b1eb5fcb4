import Folio.Number.Binary64

/-!
# Shortest decimals

The text of a floating-point number has the fewest significant digits that read back as the same
number, and of those the nearest. It is written positionally from 10^-4 up to below 10^16, with at
least one decimal, and otherwise with an exponent of at least two digits.
-/

namespace Folio.Number

/-- How many digits stand before the point: `d` with 10^(d-1) ≤ num/den < 10^d. -/
def pointPlace (num den : Nat) : Int :=
  if den ≤ num then (Nat.toDigits 10 (num / den)).length
  else
    let guess : Nat := (Nat.toDigits 10 (den / num)).length
    if den ≤ num * pow10 (guess - 1) then 2 - guess else 1 - guess

/-- The integer below a quotient divided by 10^place. -/
def gridFloor (num den : Nat) (place : Int) : Nat :=
  if 0 ≤ place then num / (den * pow10 place.toNat) else num * pow10 (-place).toNat / den

/-- The numbers that read back as `mantissa · 2^exponent`, as a quotient's two ends over a common
denominator: half a unit to either side, a quarter below a power of two. -/
structure Neighbourhood where
  low : Nat
  value : Nat
  high : Nat
  den : Nat
  /-- The ends belong to it. -/
  closed : Bool

/-- The numbers nearer to a given one than to its neighbours. -/
def neighbourhood (mantissa : Nat) (exponent : Int) : Neighbourhood :=
  let (unit, den) := Binary64.ratio 1 (exponent - 2)
  let below := if mantissa = pow2 52 && exponent > -1074 then 1 else 2
  { low := (4 * mantissa - below) * unit, value := 4 * mantissa * unit,
    high := (4 * mantissa + 2) * unit, den, closed := mantissa % 2 == 0 }

/-- Whether a multiple of 10^place reads back as the number. -/
def Neighbourhood.holds (n : Neighbourhood) (k : Nat) (place : Int) : Bool :=
  let (k, den) := if 0 ≤ place then (k * pow10 place.toNat * n.den, 1)
    else (k * n.den, pow10 (-place).toNat)
  if n.closed then n.low * den ≤ k && k ≤ n.high * den else n.low * den < k && k < n.high * den

/-- The nearer of two adjacent multiples of 10^place; the even one of equally near ones. -/
def Neighbourhood.nearer (n : Neighbourhood) (k : Nat) (place : Int) : Nat :=
  let (lower, value, upper) :=
    if 0 ≤ place then
      (k * pow10 place.toNat * n.den, n.value, (k + 1) * pow10 place.toNat * n.den)
    else (k * n.den, n.value * pow10 (-place).toNat, (k + 1) * n.den)
  if value - lower < upper - value then k
  else if upper - value < value - lower then k + 1
  else if k % 2 = 0 then k else k + 1

/-- The first grid, from coarse to fine, with a point that reads back: the point and its place. -/
def shortestFrom (n : Neighbourhood) (top : Int) : Nat → Nat × Int
  | 0 => (gridFloor n.value n.den (top - 17), top - 17)
  | left + 1 =>
    let place := top - (17 - left : Nat)
    let k := gridFloor n.value n.den place
    match n.holds k place, n.holds (k + 1) place with
    | true, true => (n.nearer k place, place)
    | true, false => (k, place)
    | false, true => (k + 1, place)
    | false, false => shortestFrom n top left

/-- The shortest digits of a positive number, with the place of the last one. -/
def shortest (mantissa : Nat) (exponent : Int) : Nat × Int :=
  let n := neighbourhood mantissa exponent
  shortestFrom n (pointPlace n.value n.den) 17

/-- Digits without the zeros at their end. -/
def stripZeros (digits : List Char) : List Char :=
  (digits.reverse.dropWhile (· = '0')).reverse

/-- The text of a positive number from its shortest digits. -/
def layout (k : Nat) (place : Int) : String :=
  let all := Nat.toDigits 10 k
  let exponent : Int := all.length + place - 1
  let digits := stripZeros all
  if -4 ≤ exponent && exponent < 16 then
    let (whole, fraction) :=
      if exponent < 0 then (['0'], List.replicate (-exponent - 1).toNat '0' ++ digits)
      else
        let n := exponent.toNat + 1
        (digits.take n ++ List.replicate (n - digits.length) '0', digits.drop n)
    String.ofList (whole ++ '.' :: (if fraction.isEmpty then ['0'] else fraction))
  else
    let power := Nat.toDigits 10 exponent.natAbs
    String.ofList (digits.take 1 ++ (if digits.length > 1 then '.' :: digits.drop 1 else []) ++
      'e' :: (if exponent < 0 then '-' else '+') :: List.replicate (2 - power.length) '0' ++ power)

/-- The text of a number. -/
def Binary64.text : Binary64 → String
  | .nan => "nan"
  | .infinite negative => if negative then "-inf" else "inf"
  | .finite negative mantissa exponent =>
    let body := if mantissa = 0 then "0.0" else
      let (k, place) := shortest mantissa exponent
      layout k place
    if negative then "-" ++ body else body

end Folio.Number
