import TokenGrammar.Decimal.Shortest

/-!
This module contains the layout of a float as text: where the point stands, when an exponent is
written, and the names of the values that have no digits.
-/

namespace TokenGrammar
namespace Decimal

/--
The decisions that a layout of floats takes once the digits are chosen.
-/
structure Layout where
  /-- The smallest exponent of the leading digit that is written without an exponent. -/
  firstPositional : Int
  /-- The first exponent of the leading digit that is too large to be written without one. -/
  firstLarge : Int
  /-- What ends a whole number that is written without an exponent. -/
  wholeSuffix : String
  /-- The least number of digits of a written exponent. -/
  exponentWidth : Nat
  /-- The text of the value without bound. -/
  infinite : String
  /-- The text of the value that is not a number. -/
  notANumber : String

/--
Values are written positionally with exponents from -4 to 15, whole ones with one zero behind the
point; other exponents have a sign and at least two digits.
-/
def plainLayout : Layout where
  firstPositional := -4
  firstLarge := 16
  wholeSuffix := ".0"
  exponentWidth := 2
  infinite := "inf"
  notANumber := "nan"

/--
The digits behind the point, led by the point if there are any.
-/
def fraction (digits : List Char) : List Char :=
  if digits.isEmpty then [] else '.' :: digits

/--
The text of a positive decimal.
-/
def Layout.positive (layout : Layout) (x : Scientific) : List Char :=
  let digits := Nat.toDigits 10 x.digits
  let leading : Int := x.exponent + digits.length - 1
  if layout.firstPositional ≤ leading && leading < layout.firstLarge then
    if leading < 0 then
      '0' :: '.' :: List.replicate (-leading - 1).toNat '0' ++ digits
    else if x.exponent ≥ 0 then
      digits ++ List.replicate x.exponent.toNat '0' ++ layout.wholeSuffix.toList
    else
      digits.take (leading.toNat + 1) ++ fraction (digits.drop (leading.toNat + 1))
  else
    let exponent := Nat.toDigits 10 leading.natAbs
    digits.take 1 ++ fraction (digits.drop 1) ++ 'e' :: (if leading < 0 then '-' else '+')
      :: List.replicate (layout.exponentWidth - exponent.length) '0' ++ exponent

/--
The text of a float.
-/
def Layout.write (layout : Layout) (x : Float) : String :=
  if x.isNaN then layout.notANumber
  else
    let sign := if x.toBits >>> 63 == 1 then "-" else ""
    let size := x.abs
    if size.isInf then sign ++ layout.infinite
    else if size == 0 then sign ++ "0" ++ layout.wholeSuffix
    else sign ++ String.ofList (layout.positive (shortest size))

end Decimal
end TokenGrammar
