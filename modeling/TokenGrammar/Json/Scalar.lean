import TokenGrammar.Decimal.Rounding
import TokenGrammar.Fault

/-!
This module contains the values of single JSON tokens: strings with their escapes, numbers and named
constants. Digits and letters are those of ASCII here.
-/

namespace TokenGrammar
namespace Json

/--
The character that an escape letter stands for.
-/
def escapeChar? : Char → Option Char
  | '\x22' => some '\x22'
  | '\\' => some '\\'
  | '/' => some '/'
  | 'b' => some '\x08'
  | 'f' => some '\x0c'
  | 'n' => some '\n'
  | 'r' => some '\r'
  | 't' => some '\t'
  | _ => none

/--
The number that the first four characters write in hexadecimal.
-/
def hexUnit? (cs : List Char) : Option Nat :=
  match (cs.take 4).mapM Text.hexValue? with
  | some [a, b, c, d] => some (Text.ofDigits 16 [a, b, c, d])
  | _ => none

/--
The second half of a pair of units that together write one character, if one follows.
-/
def lowUnit? : List Char → Option Nat
  | '\\' :: 'u' :: rest => match hexUnit? rest with
    | some unit => if 0xDC00 ≤ unit && unit ≤ 0xDFFF then some unit else none
    | none => none
  | _ => none

/--
The characters of a string, read from behind the opening quote to the closing one, and what follows
it. `offset` is the place of the first character in the token. A half of a pair that stands alone is
replaced by the replacement character.
-/
def stringChars (offset : Nat) : List Char → Except Fault (List Char × List Char)
  | [] => .error (.scalar .invalidEscape offset)
  | ['\\'] => .error (.scalar .invalidEscape offset)
  | '\\' :: 'u' :: rest =>
    match hexUnit? rest with
    | none => .error (.scalar .invalidUnicodeEscape (offset + 1))
    | some unit =>
      if 0xD800 ≤ unit && unit ≤ 0xDBFF then
        match lowUnit? (rest.drop 4) with
        | some low => do
          let code := 0x10000 + (unit - 0xD800) * 0x400 + (low - 0xDC00)
          let (cs, left) ← stringChars (offset + 12) (rest.drop 10)
          return (Char.ofNat code :: cs, left)
        | none => do
          let (cs, left) ← stringChars (offset + 6) (rest.drop 4)
          return ('\ufffd' :: cs, left)
      else do
        let (cs, left) ← stringChars (offset + 6) (rest.drop 4)
        return ((if unit < 0xDC00 || 0xDFFF < unit then Char.ofNat unit else '\ufffd') :: cs, left)
  | '\\' :: c :: rest => match escapeChar? c with
    | none => .error (.scalar .invalidEscape offset)
    | some c => do
      let (cs, left) ← stringChars (offset + 2) rest
      return (c :: cs, left)
  | c :: rest =>
    if c == '\x22' then .ok ([], rest)
    else if c.toNat < 0x20 then .error (.scalar .controlCharacter offset)
    else do
      let (cs, left) ← stringChars (offset + 1) rest
      return (c :: cs, left)
termination_by cs => cs.length

/--
The digits at the start of a text and the rest.
-/
def asciiDigits (cs : List Char) : List Char × List Char :=
  (cs.takeWhile Char.isDigit, cs.dropWhile Char.isDigit)

/--
The digits behind a mark for which `isMark` holds, if there are any, with the rest. A sign may stand
before the digits where `signed` says so.
-/
def markedDigits (isMark : Char → Bool) (signed : Bool) (cs : List Char) :
    Option (Bool × List Char × List Char) :=
  match cs with
  | c :: rest =>
    if isMark c then
      let (negative, rest) := match signed, rest with
        | true, '-' :: rest => (true, rest)
        | true, '+' :: rest => (false, rest)
        | _, rest => (false, rest)
      match asciiDigits rest with
      | ([], _) => none
      | (digits, rest) => some (negative, digits, rest)
    else none
  | [] => none

/--
The number that digits of ASCII write.
-/
def digitsValue (digits : List Char) : Nat :=
  Text.ofDigits 10 (digits.map fun c => c.toNat - 48)

/--
The number at the start of a text and the rest. A number with a fraction or an exponent is a float.
-/
def numberValue (cs : List Char) : Except Fault (Value × List Char) :=
  let (negative, unsigned) := match cs with
    | '-' :: rest => (true, rest)
    | cs => (false, cs)
  let (whole, rest) := match unsigned with
    | '0' :: rest => (['0'], rest)
    | cs => asciiDigits cs
  let fraction := markedDigits (· == '.') false rest
  let rest := fraction.elim rest (·.2.2)
  let exponent := markedDigits (fun c => c == 'e' || c == 'E') true rest
  let rest := exponent.elim rest (·.2.2)
  -- without a fraction and an exponent the number is an integer, and its length is limited
  if fraction.isNone && exponent.isNone then
    if whole.length > Numeral.digitLimit then .error (.numeral (.tooManyDigits whole.length))
    else
      let size : Int := digitsValue whole
      .ok (.int (if negative then -size else size), rest)
  else
    let places := fraction.elim [] (·.2.1)
    let power : Int := exponent.elim 0 fun parts =>
      if parts.1 then -(digitsValue parts.2.1 : Int) else digitsValue parts.2.1
    let size := Decimal.ofScientific (digitsValue (whole ++ places)) (power - places.length)
    .ok (.number (.float (if negative then -size else size)), rest)

/--
The value at the start of a token and the rest.
-/
def scalarValue : List Char → Except Fault (Value × List Char)
  | 't' :: 'r' :: 'u' :: 'e' :: rest => .ok (.bool true, rest)
  | 'f' :: 'a' :: 'l' :: 's' :: 'e' :: rest => .ok (.bool false, rest)
  | 'n' :: 'u' :: 'l' :: 'l' :: rest => .ok (.null, rest)
  | '\x22' :: rest => do
    let (cs, left) ← stringChars 1 rest
    return (.text (String.ofList cs), left)
  | cs => numberValue cs

/--
The value of a token, which has to be used up.
-/
def decodeScalar (token : String) : Except Fault Value := do
  let cs := token.toList
  let (value, left) ← scalarValue cs
  if !left.isEmpty then throw (.scalar .extraData (cs.length - left.length))
  return value

end Json
end TokenGrammar
