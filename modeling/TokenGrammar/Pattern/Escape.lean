import TokenGrammar.Pattern.Flags

/-!
This module contains the meaning of a character behind a backslash, which depends on whether it
stands between square brackets.
-/

namespace TokenGrammar
namespace Pattern

/--
What a character behind a backslash can stand for.
-/
inductive Escape where
  | code (n : Nat)
  | named (category : Category) (negated : Bool)
  | textStart
  | textEnd
  | wordEdge (negated : Bool)
  | recalled (index : Nat)
  deriving DecidableEq, Repr

namespace Escape

/--
Control characters that have a letter.
-/
def control? : Char → Option Nat
  | 'a' => some 7
  | 't' => some 9
  | 'n' => some 10
  | 'v' => some 11
  | 'f' => some 12
  | 'r' => some 13
  | _ => none

/--
Classes of characters that have a letter, in upper case for the complement.
-/
def named? : Char → Option Escape
  | 'd' => some (.named .digit false)
  | 'D' => some (.named .digit true)
  | 's' => some (.named .blank false)
  | 'S' => some (.named .blank true)
  | 'w' => some (.named .word false)
  | 'W' => some (.named .word true)
  | _ => none

/--
The number of hexadecimal digits that have to follow a letter which introduces a code point.
-/
def hexWidth? : Char → Option Nat
  | 'x' => some 2
  | 'u' => some 4
  | 'U' => some 8
  | _ => none

def isOctalDigit (c : Char) : Bool := '0' ≤ c && c ≤ '7'

/--
The value of octal digits.
-/
def octalValue (digits : List Char) : Nat :=
  Text.ofDigits 8 (digits.map fun c => c.toNat - 48)

/--
Read a code point of exactly the given number of hexadecimal digits.
-/
def hexCode (width : Nat) : Reading Escape := do
  let digits ← Reading.upTo (fun c => (Text.hexValue? c).isSome) width
  if digits.length != width then .refuse
  let n := Text.ofDigits 16 (digits.filterMap Text.hexValue?)
  if n > 0x10FFFF then .refuse
  return .code n

/--
The code point that octal digits write, which must fit into one byte.
-/
def octalCode (digits : List Char) : Reading Escape := do
  let n := octalValue digits
  if n > 255 then .refuse
  return .code n

/--
What is left once the letters with a meaning are dealt with: other letters of ASCII are refused, and
every other character stands for itself.
-/
def itself (c : Char) : Reading Escape := do
  if c.isAlpha then .refuse
  return .code c.toNat

/--
Read the rest of an escape between square brackets.
-/
def readInClass (c : Char) : Reading Escape := do
  if let some n := control? c then return .code n
  if c == 'b' then return .code 8
  if let some escape := named? c then return escape
  if let some width := hexWidth? c then return ← hexCode width
  if isOctalDigit c then
    return ← octalCode (c :: (← Reading.upTo isOctalDigit 2))
  if c.isDigit then .refuse
  itself c

/--
Read the rest of an escape that starts with a digit: an octal code point if it starts with zero or
has three octal digits, else the number of a group.
-/
def readDigits (c : Char) : Reading Escape := do
  if c == '0' then return ← octalCode (c :: (← Reading.upTo isOctalDigit 2))
  match ← Reading.upTo Char.isDigit 1 with
  | [] => return .recalled (c.toNat - 48)
  | d :: _ =>
    if isOctalDigit c && isOctalDigit d then
      match ← Reading.upTo isOctalDigit 1 with
      | [] => return .recalled (10 * (c.toNat - 48) + (d.toNat - 48))
      | e :: _ => octalCode [c, d, e]
    else return .recalled (10 * (c.toNat - 48) + (d.toNat - 48))

/--
Read the rest of an escape outside square brackets.
-/
def read (c : Char) : Reading Escape := do
  if let some escape := named? c then return escape
  match c with
  | 'A' => return .textStart
  | 'Z' => return .textEnd
  | 'b' => return .wordEdge false
  | 'B' => return .wordEdge true
  | _ =>
    if let some n := control? c then return .code n
    if let some width := hexWidth? c then return ← hexCode width
    if c.isDigit then return ← readDigits c
    itself c

end Escape

end Pattern
end TokenGrammar
