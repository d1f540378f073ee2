import TokenGrammar.Text.Blank
import TokenGrammar.Text.Digit
import TokenGrammar.Text.Quoted

/-!
This module contains the reading of integers: decimal digits of any script, with blanks around them,
a sign in front and single low lines between digits.
-/

namespace TokenGrammar

/--
Why a text is no integer, or why an integer cannot be written as a text.
-/
inductive NumeralFault where
  | notAnInteger (text : String)
  | tooManyDigits (count : Nat)
  /-- An integer of too many digits to be written. -/
  | unwritable
  deriving DecidableEq, Repr

/--
The number of characters of a quoted text that are shown at most.
-/
def NumeralFault.shownLength : Nat := 200

/--
The wording of a fault in an integer.
-/
def NumeralFault.message : NumeralFault → String
  | .notAnInteger text =>
    "invalid literal for int() with base 10: "
      ++ String.ofList ((Text.quoted text).toList.take shownLength)
  | .tooManyDigits count =>
    s!"Exceeds the limit (4300 digits) for integer string conversion: value has {count} digits; "
      ++ "use sys.set_int_max_str_digits() to increase the limit"
  | .unwritable =>
    "Exceeds the limit (4300 digits) for integer string conversion; "
      ++ "use sys.set_int_max_str_digits() to increase the limit"

namespace Numeral

/--
The largest number of digits that an integer may be written with.
-/
def digitLimit : Nat := 4300

/--
Whether an integer has more digits than may be written.
-/
def isOverlong (n : Int) : Bool :=
  Nat.pow 10 digitLimit ≤ n.natAbs

/--
The digit values that a text starts with, single low lines between them left out, and the rest. A low
line that no digit follows belongs to the rest.
-/
def leadingDigits : List Char → List Nat × List Char
  | [] => ([], [])
  | c :: rest => match Text.digitValue? c with
    | none => ([], c :: rest)
    | some value => match rest with
      | [] => ([value], [])
      | d :: rest' =>
        let (values, left) := if d == '_' && rest'.head?.any Text.isDigit then leadingDigits rest'
          else leadingDigits (d :: rest')
        (value :: values, left)

/--
The characters that may stand around an integer: the blanks but for the four information separators.
-/
def isMargin (c : Char) : Bool :=
  Text.isBlank c && !(28 ≤ c.toNat && c.toNat ≤ 31)

/--
The integer that a text writes. Too many digits are reported before anything that follows them, a
misplaced low line excepted.
-/
def readInteger (text : String) : Except NumeralFault Int :=
  let cs := Text.trimmed isMargin text.toList
  let (negative, unsigned) := match cs with
    | '-' :: rest => (true, rest)
    | '+' :: rest => (false, rest)
    | cs => (false, cs)
  let (digits, left) := leadingDigits unsigned
  -- a low line in the wrong place is met while the digits are counted, other leftovers only behind them
  if digits.isEmpty || left.head? == some '_' then .error (.notAnInteger text)
  else if digits.length > digitLimit then .error (.tooManyDigits digits.length)
  else if !left.isEmpty then .error (.notAnInteger text)
  else
    let size : Int := Text.ofDigits 10 digits
    .ok (if negative then -size else size)

end Numeral
end TokenGrammar
