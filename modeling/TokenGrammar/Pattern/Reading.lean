import TokenGrammar.Numeral

/-!
This module contains the lexemes of a pattern text, single characters and characters behind a
backslash, and the readers that the notation of patterns is read with. A reader never leaves more
lexemes than it was given, which is what loops over readers end by.
-/

namespace TokenGrammar
namespace Pattern

/--
Why a pattern text has no meaning.
-/
inductive PatternFault where
  | malformed
  | countTooLarge
  | countTooLong (fault : NumeralFault)
  | incompatibleFlags
  deriving DecidableEq, Repr

/--
A character, a character behind a backslash, or a backslash at the end of the text.
-/
inductive Lexeme where
  | plain (c : Char)
  | escaped (c : Char)
  | dangling
  deriving DecidableEq, Repr

namespace Lexeme

/--
The lexemes of a pattern text.
-/
def ofChars : List Char → List Lexeme
  | [] => []
  | ['\\'] => [.dangling]
  | '\\' :: c :: rest => .escaped c :: ofChars rest
  | c :: rest => .plain c :: ofChars rest

/--
The characters that a lexeme is written with.
-/
def chars : Lexeme → List Char
  | .plain c => [c]
  | .escaped c => ['\\', c]
  | .dangling => ['\\']

/--
The character of a lexeme without a backslash, if the character has the property.
-/
def plainThat? (property : Char → Bool) : Lexeme → Option Char
  | .plain c => if property c then some c else none
  | _ => none

end Lexeme

/--
What a reader hands on: its answer, and the lexemes that are left of the input.
-/
structure Reading.Result (α : Type) (input : List Lexeme) where
  answer : α
  rest : List Lexeme
  rest_le : rest.length ≤ input.length

/--
A reader of lexemes.
-/
def Reading (α : Type) : Type :=
  (input : List Lexeme) → Except PatternFault (Reading.Result α input)

namespace Reading

instance : Monad Reading where
  pure a := fun input => .ok ⟨a, input, Nat.le_refl _⟩
  bind first next := fun input => match first input with
    | .error fault => .error fault
    | .ok ⟨a, rest, rest_le⟩ => match next a rest with
      | .error fault => .error fault
      | .ok ⟨b, rest', rest'_le⟩ => .ok ⟨b, rest', Nat.le_trans rest'_le rest_le⟩

/--
Refuse the pattern for the given reason.
-/
def fail (fault : PatternFault) : Reading α :=
  fun _ => .error fault

/--
Refuse the pattern as malformed.
-/
def refuse : Reading α :=
  fail .malformed

/--
The next lexeme, which is left where it is.
-/
def peek : Reading (Option Lexeme) :=
  fun input => .ok ⟨input.head?, input, Nat.le_refl _⟩

/--
The next lexeme.
-/
def next : Reading (Option Lexeme)
  | [] => .ok ⟨none, [], Nat.le_refl _⟩
  | lexeme :: rest => .ok ⟨some lexeme, rest, Nat.le_succ _⟩

/--
The next lexeme, where the pattern must not end.
-/
def expect : Reading Lexeme := do
  match ← next with
  | some lexeme => return lexeme
  | none => refuse

/--
Read the given character if it comes next.
-/
def accept (c : Char) : Reading Bool
  | .plain d :: rest =>
    if c == d then .ok ⟨true, rest, Nat.le_succ _⟩ else .ok ⟨false, .plain d :: rest, Nat.le_refl _⟩
  | input => .ok ⟨false, input, Nat.le_refl _⟩

/--
Read characters with a property, at most the given number of them.
-/
def upTo (property : Char → Bool) : Nat → Reading (List Char)
  | 0 => pure []
  | more + 1 => do
    match (← peek).bind (·.plainThat? property) with
    | none => return []
    | some c => do
      let _ ← next
      return c :: (← upTo property more)

/--
Read all characters with a property that come next.
-/
def many (property : Char → Bool) : Reading (List Char) :=
  fun input => upTo property input.length input

/--
Run a reader and put back what it read unless it answers with a value.
-/
def attempt (reader : Reading (Option α)) : Reading (Option α) :=
  fun input => match reader input with
    | .error fault => .error fault
    | .ok ⟨none, _, _⟩ => .ok ⟨none, input, Nat.le_refl _⟩
    | .ok result => .ok result

/--
Read up to the given character and over it. A character behind a backslash does not end the search.
-/
def through (stop : Char) : Reading (List Char) :=
  fun input => match _h : input.dropWhile (· != .plain stop) with
    | [] => .error .malformed
    | _ :: rest => .ok ⟨(input.takeWhile (· != .plain stop)).flatMap Lexeme.chars, rest, by
        have := (List.dropWhile_sublist (· != .plain stop) (l := input)).length_le
        rw [_h] at this
        simp only [List.length_cons] at this
        omega⟩

end Reading

end Pattern
end TokenGrammar
