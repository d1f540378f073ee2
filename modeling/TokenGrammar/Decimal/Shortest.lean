/-!
This module contains the choice of decimal digits for a float: the fewest digits that read back to
it, and of several such the nearest.
-/

namespace TokenGrammar
namespace Decimal

/--
A positive float as `significand * 2 ^ exponent`, with the half distances to its two neighbours in
quarters of `2 ^ exponent`.
-/
structure Binary where
  significand : Nat
  exponent : Int
  /-- The half distance to the next smaller float. -/
  below : Nat
  /-- The half distance to the next larger float. -/
  above : Nat

/--
The parts of a positive finite float. Right above a power of two the smaller neighbour is only half
as far away as the larger one.
-/
def Binary.ofFloat (x : Float) : Binary :=
  let bits := x.toBits.toNat
  let field : Nat := bits / Nat.pow 2 52 % 2048
  let fraction := bits % Nat.pow 2 52
  if field == 0 then ⟨fraction, -1074, 2, 2⟩
  else ⟨Nat.pow 2 52 + fraction, (field : Int) - 1075, if fraction == 0 && field > 1 then 1 else 2, 2⟩

/--
A decimal `digits * 10 ^ exponent`.
-/
structure Scientific where
  digits : Nat
  exponent : Int
  deriving DecidableEq, Repr

/--
The number of decimal digits of a positive number.
-/
def digitCount (n : Nat) : Nat :=
  (Nat.toDigits 10 n).length

/--
`(a, b, c, d)` such that a multiple `n * 10 ^ exponent` compares with `m * 2 ^ (e - 2)` as
`n * a * b` does with `m * c * d`.
-/
def Binary.scale (x : Binary) (exponent : Int) : Nat × Nat × Nat × Nat :=
  (Nat.pow 10 exponent.toNat, Nat.pow 2 (2 - x.exponent).toNat, Nat.pow 2 (x.exponent - 2).toNat,
    Nat.pow 10 (-exponent).toNat)

/--
The best of the two multiples of `10 ^ exponent` next to the float, if one of them reads back to it.
The ends of the interval that rounds to a float belong to it exactly when its significand is even.
-/
def Binary.onGrid? (x : Binary) (exponent : Int) : Option Nat :=
  let (a, b, c, d) := x.scale exponent
  -- everything is compared in quarters of the last bit over a common denominator
  let unit := a * b
  let value := 4 * x.significand * (c * d)
  let first := (4 * x.significand - x.below) * (c * d)
  let last := (4 * x.significand + x.above) * (c * d)
  let inside (n : Nat) : Bool :=
    if x.significand % 2 == 0 then first ≤ n * unit && n * unit ≤ last
    else first < n * unit && n * unit < last
  let low := value / unit
  let remainder := 2 * (value % unit)
  let near := if remainder < unit then low
    else if remainder > unit then low + 1
    else low + low % 2
  let far := if near == low then low + 1 else low
  if near != 0 && inside near then some near
  else if far != 0 && inside far then some far
  else none

/--
The exponent of the leading decimal digit of the float.
-/
def Binary.leading (x : Binary) : Int :=
  if x.exponent ≥ 0 then digitCount (x.significand * Nat.pow 2 x.exponent.toNat) - 1
  else
    let scaled := x.significand * Nat.pow 10 (-x.exponent).toNat / Nat.pow 2 (-x.exponent).toNat
    digitCount scaled - 1 + x.exponent

/--
The fewest digits that read back to a positive finite float, tried from one digit upwards. Seventeen
digits always suffice.
-/
def Binary.shortest (x : Binary) : Scientific :=
  go 17 x.leading
where
  go : Nat → Int → Scientific
  | 0, exponent => ⟨0, exponent⟩
  | more + 1, exponent =>
    match x.onGrid? exponent with
    -- a multiple next to the float may end in zeros where it carries into a longer number
    | some digits => strip digits exponent 17
    | none => go more (exponent - 1)
  strip (digits : Nat) (exponent : Int) : Nat → Scientific
  | 0 => ⟨digits, exponent⟩
  | more + 1 => if digits % 10 == 0 then strip (digits / 10) (exponent + 1) more else ⟨digits, exponent⟩

/--
The fewest digits that read back to a positive finite float.
-/
def shortest (x : Float) : Scientific :=
  (Binary.ofFloat x).shortest

end Decimal
end TokenGrammar
