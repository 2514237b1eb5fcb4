import Folio.Number.Power

/-!
# Binary floating-point numbers

A finite number is a natural mantissa below 2^53 times a power of two; the exponent is at least
-1074, and the mantissa is at least 2^52 unless the exponent is that smallest one. Every quotient of
natural numbers has a nearest such number, and of two equally near the one with the even mantissa.
-/

namespace Folio.Number

/-- The natural number nearest to a quotient; a half goes to the even neighbour. -/
def roundDiv (num den : Nat) : Nat :=
  let q := num / den
  let twice := 2 * (num % den)
  if twice < den then q
  else if den < twice then q + 1
  else if q % 2 = 0 then q else q + 1

/-- A number in double precision. -/
inductive Binary64
  /-- A signed multiple of a power of two. -/
  | finite (negative : Bool) (mantissa : Nat) (exponent : Int)
  /-- Larger than every finite number, or smaller. -/
  | infinite (negative : Bool)
  /-- No number. -/
  | nan
deriving DecidableEq

namespace Binary64

/-- The quotient of two numbers, scaled down by a power of two, to the nearest integer. -/
def scaleDown (num den : Nat) (exponent : Int) : Nat :=
  if 0 ≤ exponent then roundDiv num (den * pow2 exponent.toNat)
  else roundDiv (num * pow2 (-exponent).toNat) den

/-- The number nearest to a signed quotient. -/
def ofRatio (negative : Bool) (num den : Nat) : Binary64 :=
  if num = 0 then finite negative 0 (-1074)
  else
    let guess : Int := (num.log2 : Int) - den.log2 - 53
    let fits := scaleDown num den guess < pow2 53
    let exponent := max (if fits then guess else guess + 1) (-1074)
    let mantissa := scaleDown num den exponent
    let (mantissa, exponent) :=
      if mantissa = pow2 53 then (pow2 52, exponent + 1) else (mantissa, exponent)
    if exponent > 971 then infinite negative else finite negative mantissa exponent

/-- The number nearest to an integer times a power of ten. -/
def ofDecimal (negative : Bool) (digits : Nat) (exponent : Int) : Binary64 :=
  let size : Int := (Nat.toDigits 10 digits).length
  if digits = 0 then finite negative 0 (-1074)
  else if size + exponent > 400 then infinite negative
  else if size + exponent < -400 then finite negative 0 (-1074)
  else if 0 ≤ exponent then ofRatio negative (digits * pow10 exponent.toNat) 1
  else ofRatio negative digits (pow10 (-exponent).toNat)

/-- The magnitude as a quotient of natural numbers. -/
def ratio (mantissa : Nat) (exponent : Int) : Nat × Nat :=
  if 0 ≤ exponent then (mantissa * pow2 exponent.toNat, 1) else (mantissa, pow2 (-exponent).toNat)

/-- Whether a number is a zero of either sign. -/
def isZero : Binary64 → Bool
  | finite _ mantissa _ => mantissa == 0
  | _ => false

/-- The integer that a number equals, if it is one. -/
def toInt? : Binary64 → Option Int
  | finite negative mantissa exponent =>
    let (num, den) := ratio mantissa exponent
    if num % den = 0 then some (if negative then -(num / den : Nat) else (num / den : Nat))
    else none
  | _ => none

end Binary64

end Folio.Number
