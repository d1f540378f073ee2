/-!
This module contains the passage from exact quotients to binary floating point numbers: a quotient
goes to the nearest number with a significand of 53 bits, and of two equally near ones to the one
with the even significand.
-/

namespace TokenGrammar
namespace Decimal

/--
The integer nearest to `num / den`, the even one of two equally near.
-/
def roundQuotient (num den : Nat) : Nat :=
  let low := num / den
  let twice := 2 * (num % den)
  if twice < den then low
  else if twice > den then low + 1
  else low + low % 2

/--
The exponent of the last bit that a float keeps of the quotient `num / den`: the significand gets 53
bits unless that would take the exponent below the smallest one.
-/
def unitExponent (num den : Nat) : Int :=
  let guess : Int := (num.log2 : Int) - den.log2 - 52
  let enough := if guess ≥ 0 then den * Nat.pow 2 (guess.toNat + 52) ≤ num
    else den * Nat.pow 2 52 ≤ num * Nat.pow 2 (-guess).toNat
  max (if enough then guess else guess - 1) (-1074)

/--
The bits of the float nearest to `num / den`, or `none` where the quotient lies beyond the largest
float. The significand is added onto the exponent field, so a carry out of it raises the exponent.
-/
def nearestBits? (num den : Nat) : Option Nat :=
  if num == 0 then some 0
  else
    let unit := unitExponent num den
    let significand := if unit ≥ 0 then roundQuotient num (den * Nat.pow 2 unit.toNat)
      else roundQuotient (num * Nat.pow 2 (-unit).toNat) den
    let bits := (unit + 1074).toNat * Nat.pow 2 52 + significand
    if bits < 2047 * Nat.pow 2 52 then some bits else none

/--
The float nearest to `num / den`, or `none` where it would be infinite.
-/
def ofQuotient? (num den : Nat) : Option Float :=
  (nearestBits? num den).map fun bits => Float.ofBits (UInt64.ofNat bits)

/--
The float nearest to an integer, or `none` where it would be infinite.
-/
def ofInt? (n : Int) : Option Float :=
  (ofQuotient? n.natAbs 1).map fun x => if n < 0 then -x else x

/--
The float without a last finite value.
-/
def infinity : Float := Float.ofBits 0x7FF0000000000000

/--
The float nearest to `digits * 10 ^ exponent`. An exponent that settles the answer by its size alone
is not carried out.
-/
def ofScientific (digits : Nat) (exponent : Int) : Float :=
  if digits == 0 then 0
  else if exponent > 400 then infinity
  else if exponent ≥ 0 then (ofQuotient? (digits * Nat.pow 10 exponent.toNat) 1).getD infinity
  else if -exponent > digits.log2 + 400 then 0
  else (ofQuotient? digits (Nat.pow 10 (-exponent).toNat)).getD infinity

end Decimal
end TokenGrammar
