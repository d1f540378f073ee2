import TokenGrammar.Text.Digit
import TokenGrammar.Text.Scan

/-!
This module contains the tokens of JSON texts: strings with their quotes, numbers, punctuation and the
three named constants.
-/

namespace TokenGrammar
namespace Json

/--
The number of characters up to the quote that ends a string, that quote included. A backslash takes
the next character with it, which must not be a line feed.
-/
def stringRest? : List Char → Option Nat
  | [] => none
  | ['\\'] => none
  | '\\' :: c :: rest => if c == '\n' then none else (stringRest? rest).map (· + 2)
  | c :: rest => if c == '\x22' then some 1 else (stringRest? rest).map (· + 1)

/--
The lexer of strings.
-/
def stringLexer : Text.Lexer
  | '\x22' :: rest => (stringRest? rest).elim 0 (· + 1)
  | _ => 0

/--
The number of digits at the start of a text.
-/
def digitsLength (cs : List Char) : Nat :=
  (cs.takeWhile Text.isDigit).length

/--
The number of characters of a whole number without a sign: a zero, or digits after one from 1 to 9.
-/
def wholeLength : List Char → Nat
  | c :: rest =>
    if c == '0' then 1 else if '1' ≤ c && c ≤ '9' then digitsLength rest + 1 else 0
  | [] => 0

/--
The number of characters of a fraction: a point and at least one digit.
-/
def fractionLength : List Char → Nat
  | '.' :: rest => match digitsLength rest with
    | 0 => 0
    | count + 1 => count + 2
  | _ => 0

/--
The number of characters of an exponent: its letter, perhaps a sign, and at least one digit.
-/
def exponentLength : List Char → Nat
  | c :: rest =>
    if c == 'e' || c == 'E' then
      let sign := match rest with
        | d :: _ => if d == '+' || d == '-' then 1 else 0
        | [] => 0
      match digitsLength (rest.drop sign) with
      | 0 => 0
      | count + 1 => sign + count + 2
    else 0
  | [] => 0

/--
The number of characters of a sign.
-/
def signLength : List Char → Nat
  | '-' :: _ => 1
  | _ => 0

/--
The lexer of numbers.
-/
def numberLexer : Text.Lexer := fun cs =>
  let sign := signLength cs
  match wholeLength (cs.drop sign) with
  | 0 => 0
  | count + 1 =>
    let whole := sign + count + 1
    let point := whole + fractionLength (cs.drop whole)
    point + exponentLength (cs.drop point)

/--
The marks that are tokens by themselves.
-/
def marks : List Char := ['\x7b', '\x7d', '[', ']', ':', ',']

/--
The lexer of marks.
-/
def markLexer : Text.Lexer
  | c :: _ => if marks.contains c then 1 else 0
  | [] => 0

/--
The named constants.
-/
def constants : List String := ["true", "false", "null"]

/--
The lexer of named constants.
-/
def constantLexer : Text.Lexer := fun cs =>
  (constants.find? fun name => name.toList.isPrefixOf cs).elim 0 String.length

/--
The lexer of all tokens.
-/
def lexer : Text.Lexer :=
  Text.firstLexeme [stringLexer, numberLexer, markLexer, constantLexer]

/--
The tokens of a text.
-/
def tokens (text : String) : List String :=
  (Text.lexemes lexer text.toList).map String.ofList

end Json
end TokenGrammar
