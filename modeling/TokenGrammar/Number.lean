import TokenGrammar.Decimal.Notation
import TokenGrammar.Decimal.Rounding

/-!
This module contains the numbers that results may hold, integers of any size and binary floats, and
the four operations on them. An operation on two integers is exact but for division; any other
operation turns its integer operand into a float first.
-/

namespace TokenGrammar

/--
An integer of any size or a binary float.
-/
inductive Number where
  | int (n : Int)
  | float (x : Float)
  deriving BEq

/--
What can go wrong in a calculation.
-/
inductive ArithmeticFault where
  | divisionByZero
  | floatDivisionByZero
  | quotientTooLarge
  | integerTooLarge
  deriving DecidableEq, Repr

/--
The wording of a fault in a calculation.
-/
def ArithmeticFault.message : ArithmeticFault → String
  | .divisionByZero => "division by zero"
  | .floatDivisionByZero => "float division by zero"
  | .quotientTooLarge => "integer division result too large for a float"
  | .integerTooLarge => "int too large to convert to float"

namespace Number

/--
The float nearest to a number.
-/
def toFloat : Number → Except ArithmeticFault Float
  | .float x => .ok x
  | .int n => match Decimal.ofInt? n with
    | some x => .ok x
    | none => .error .integerTooLarge

/--
An operation that is exact on integers and otherwise that of the floats.
-/
def combine (onInts : Int → Int → Int) (onFloats : Float → Float → Float) (a b : Number) :
    Except ArithmeticFault Number :=
  match a, b with
  | .int m, .int n => .ok (.int (onInts m n))
  | a, b => do
    let x ← a.toFloat
    let y ← b.toFloat
    return .float (onFloats x y)

def add : Number → Number → Except ArithmeticFault Number := combine (· + ·) (· + ·)

def sub : Number → Number → Except ArithmeticFault Number := combine (· - ·) (· - ·)

def mul : Number → Number → Except ArithmeticFault Number := combine (· * ·) (· * ·)

/--
The float nearest to the exact quotient of two integers. A quotient that vanishes keeps the sign of
the divisor as if the dividend were positive.
-/
def divInts (m n : Int) : Except ArithmeticFault Float :=
  if n == 0 then .error .divisionByZero
  else match Decimal.ofQuotient? m.natAbs n.natAbs with
    | some x => .ok (if (m < 0) != (n < 0) then -x else x)
    | none => .error .quotientTooLarge

/--
The quotient of two numbers, always a float.
-/
def div (a b : Number) : Except ArithmeticFault Number :=
  match a, b with
  | .int m, .int n => do return .float (← divInts m n)
  | a, b => do
    let x ← a.toFloat
    let y ← b.toFloat
    if y == 0 then throw .floatDivisionByZero
    return .float (x / y)

def neg : Number → Number
  | .int n => .int (-n)
  | .float x => .float (-x)

/--
Whether two numbers have the same value, be they integers or floats.
-/
def sameValue (a b : Number) : Bool :=
  match a, b with
  | .int m, .int n => m == n
  | .float x, .float y => x == y
  | .int n, .float x | .float x, .int n => match Decimal.ofInt? n with
    | some y => x == y && exactly n y
    | none => false
where
  exactly (n : Int) (x : Float) : Bool :=
    let parts := Decimal.Binary.ofFloat x.abs
    n.natAbs * Nat.pow 2 (-parts.exponent).toNat == parts.significand * Nat.pow 2 parts.exponent.toNat

/--
The text of a number.
-/
def write : Number → String
  | .int n => toString n
  | .float x => Decimal.plainLayout.write x

end Number
end TokenGrammar
