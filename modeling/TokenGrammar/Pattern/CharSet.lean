import TokenGrammar.Text.Blank
import TokenGrammar.Text.Case
import TokenGrammar.Text.Digit
import TokenGrammar.Text.WordChar

/-!
This module contains the sets of characters that a pattern can ask for at one place of a token.
-/

namespace TokenGrammar
namespace Pattern

/--
Which characters count as equal: each only to itself, or all that differ in case alone, among the
letters of ASCII or of all scripts.
-/
inductive Folding where
  | exact
  | asciiCase
  | anyCase
  deriving DecidableEq, Repr

/--
The code points that count as equal to a code point.
-/
def Folding.variants : Folding → Nat → List Nat
  | .exact, n => [n]
  | .asciiCase, n => Text.asciiCaseVariants n
  | .anyCase, n => Text.caseVariants n

/--
The form that is compared where two texts have to be equal.
-/
def Folding.key : Folding → Nat → Nat
  | .exact, n => n
  | .asciiCase, n => Text.asciiLowerCode n
  | .anyCase, n => Text.lowerCode n

/--
The classes of characters that have a name in patterns.
-/
inductive Category where
  | digit
  | blank
  | word
  deriving DecidableEq, Repr

/--
Whether a character belongs to a class, among all scripts or within ASCII only.
-/
def Category.contains (category : Category) (ascii : Bool) (c : Char) : Bool :=
  match category, ascii with
  | .digit, false => Text.isDigit c
  | .digit, true => c.isDigit
  | .blank, false => Text.isBlank c
  | .blank, true => c == ' ' || (9 ≤ c.toNat && c.toNat ≤ 13)
  | .word, false => Text.isWordChar c
  | .word, true => Text.isAsciiWordChar c

/--
A part of a set of characters: a range of code points, both ends included, or a named class or its
complement.
-/
inductive ClassItem where
  | range (first last : Nat)
  | named (category : Category) (ascii negated : Bool)
  deriving DecidableEq, Repr

/--
Whether a character lies in a part of a set.
-/
def ClassItem.contains (folding : Folding) (c : Char) : ClassItem → Bool
  | .range first last => (folding.variants c.toNat).any fun n => first ≤ n && n ≤ last
  | .named category ascii negated => category.contains ascii c != negated

/--
A set of characters: the union of its parts or the complement of that.
-/
structure CharSet where
  items : List ClassItem
  negated : Bool := false
  folding : Folding := .exact
  deriving DecidableEq, Repr

namespace CharSet

/--
Whether a character lies in a set.
-/
def contains (set : CharSet) (c : Char) : Bool :=
  set.items.any (·.contains set.folding c) != set.negated

/--
The set of one character and those that count as equal to it.
-/
def single (folding : Folding) (code : Nat) : CharSet where
  items := [.range code code]
  folding := folding

/--
All characters.
-/
def all : CharSet where
  items := []
  negated := true

/--
All characters but the line feed.
-/
def exceptLineFeed : CharSet where
  items := [.range 10 10]
  negated := true

@[simp]
theorem contains_all (c : Char) : all.contains c = true := by
  simp [all, contains]

@[simp]
theorem contains_single (c d : Char) : (single .exact c.toNat).contains d = (d == c) := by
  by_cases h : d = c
  · simp [single, contains, ClassItem.contains, Folding.variants, h]
  · have ne : d.toNat ≠ c.toNat := fun e => h (Char.toNat_inj.1 e)
    simp only [single, contains, ClassItem.contains, Folding.variants, List.any_cons, List.any_nil]
    simp only [Bool.or_false, Bool.bne_false, beq_eq_false_iff_ne.2 h, Bool.and_eq_false_iff,
      decide_eq_false_iff_not]
    omega

end CharSet

end Pattern
end TokenGrammar
