import TokenGrammar.Pattern.Regex
import TokenGrammar.Pattern.Reading

/-!
This module contains the notation of repetitions: how many rounds, and which number of them is tried
first.
-/

namespace TokenGrammar
namespace Pattern

/--
The least and the greatest number of rounds.
-/
structure Rounds where
  least : Nat
  most : Option Nat
  deriving DecidableEq, Repr

namespace Rounds

/--
The number that a list of digits writes, `none` for the empty list. It must be smaller than the
length that stands for "no bound".
-/
def count (digits : List Char) : Reading (Option Nat) := do
  if digits.isEmpty then return none
  match Numeral.readInteger (String.ofList digits) with
  | .error fault => .fail (.countTooLong fault)
  | .ok n =>
    if n.toNat ≥ Width.unbounded then .fail .countTooLarge
    return some n.toNat

/--
Read the numbers of rounds behind an opening brace. If no well-formed pair of numbers follows, the
brace stands for itself and nothing more is read.
-/
def readBraces : Reading (Option Rounds) :=
  Reading.attempt do
    if (← Reading.peek) == some (.plain '\x7d') then return none
    let low ← Reading.many Char.isDigit
    let high ← if ← Reading.accept ',' then Reading.many Char.isDigit else pure low
    if !(← Reading.accept '\x7d') then return none
    -- a backslash that ends the text is refused before the numbers are looked at
    if (← Reading.peek) == some .dangling then .refuse
    let least ← count low
    let most ← count high
    if most.any (· < least.getD 0) then .refuse
    return some ⟨least.getD 0, most⟩

end Rounds

/--
Read the mark behind a repetition that says which number of rounds is tried first.
-/
def Greed.read : Reading Greed := do
  if ← Reading.accept '?' then return .lazy
  if ← Reading.accept '+' then return .possessive
  return .greedy

end Pattern
end TokenGrammar
