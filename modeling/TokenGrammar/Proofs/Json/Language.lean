import TokenGrammar.Proofs.Json.Lexing
import TokenGrammar.Proofs.Json.Productions
import TokenGrammar.Proofs.Pattern.Denotation

/-!
This module contains the languages of JSON scalars. They are described twice: by patterns for whole tokens, and by
lexers for the start of a text. Both describe the same languages.
-/

open scoped Computability

namespace TokenGrammar
namespace Json

open Pattern

/--
A character of a string, or a backslash with the character that it takes with it.
-/
def stringPart : Language Char :=
  oneOf (fun c => c ≠ '\x22' ∧ c ≠ '\\') + oneOf (· = '\\') * oneOf (· ≠ '\n')

/--
What stands behind the opening quote of a string.
-/
def stringTail : Language Char := stringPart∗ * oneOf (· = '\x22')

/--
The digits of all scripts, those of ASCII among them.
-/
def digit : Language Char := oneOf (Text.isDigit · = true)

def sign : Language Char := oneOf (· = '-') + 1

def whole : Language Char := oneOf (· = '0') + oneOf (fun c => '1' ≤ c ∧ c ≤ '9') * digit∗

def fraction : Language Char := oneOf (· = '.') * (digit * digit∗) + 1

def exponentMark : Language Char := oneOf (fun c => c = '+' ∨ c = '-') + 1

def exponent : Language Char :=
  oneOf (fun c => c = 'e' ∨ c = 'E') * (exponentMark * (digit * digit∗)) + 1

namespace ScalarKind

/--
The tokens that are written for scalars of a kind.
-/
def language : ScalarKind → Language Char
  | .string => oneOf (· = '\x22') * stringTail
  | .number => sign * (whole * (fraction * exponent))
  | .constant => {cs | ∃ name ∈ constants, cs = name.toList}

theorem contains_range {first last : Nat} {c : Char}
    : (⟨[.range first last], false, .exact⟩ : CharSet).contains c = true
        ↔
      first ≤ c.toNat ∧ c.toNat ≤ last := by
  simp [CharSet.contains, ClassItem.contains, Folding.variants]

theorem contains_character {d c : Char}
    : (⟨[character d.toNat], false, .exact⟩ : CharSet).contains c = true ↔ c = d := by
  rw [← Char.toNat_inj, character, contains_range]
  omega

theorem contains_either {d e c : Char}
    : (⟨[character d.toNat, character e.toNat], false, .exact⟩ : CharSet).contains c = true
        ↔
      c = d ∨ c = e := by
  rw [← Char.toNat_inj, ← Char.toNat_inj]
  simp [character, CharSet.contains, ClassItem.contains, Folding.variants]
  omega

theorem contains_other {d c : Char}
    : (⟨[character d.toNat], true, .exact⟩ : CharSet).contains c = true ↔ c ≠ d := by
  rw [Ne, ← Char.toNat_inj]
  simp [character, CharSet.contains, ClassItem.contains, Folding.variants]

theorem contains_neither {d e c : Char}
    : (⟨[character d.toNat, character e.toNat], true, .exact⟩ : CharSet).contains c = true
        ↔
      c ≠ d ∧ c ≠ e := by
  rw [Ne, Ne, ← Char.toNat_inj, ← Char.toNat_inj]
  simp [character, CharSet.contains, ClassItem.contains, Folding.variants]

theorem contains_digit {c : Char}
    : (⟨[.named .digit false false], false, .exact⟩ : CharSet).contains c = true
        ↔
      Text.isDigit c = true := by
  simp [CharSet.contains, ClassItem.contains, Category.contains]

theorem denotes_character (d : Char) : (positive [character d.toNat]).Denotes (oneOf (· = d)) :=
  Regex.denotes_one fun _ => contains_character

theorem denotes_either (d e : Char)
    : (positive [character d.toNat, character e.toNat]).Denotes (oneOf fun c => c = d ∨ c = e) :=
  Regex.denotes_one fun _ => contains_either

theorem denotes_digit : ScalarKind.digit.Denotes Json.digit := Regex.denotes_one fun _ => contains_digit

theorem denotes_stringRegex : stringRegex.Denotes (language .string) := by
  have hplain : (negative [character '\x22'.toNat, character '\\'.toNat]).Denotes
      (oneOf fun c => c ≠ '\x22' ∧ c ≠ '\\') := Regex.denotes_one fun _ => contains_neither
  have hescaped : (negative [character '\n'.toNat]).Denotes (oneOf (· ≠ '\n')) :=
    Regex.denotes_one fun _ => contains_other
  have hpart := hplain.alt ((denotes_character '\\').cat hescaped)
  exact (denotes_character '\x22').cat (hpart.star.cat (denotes_character '\x22'))

theorem denotes_numberRegex : numberRegex.Denotes (language .number) := by
  have hdigits := denotes_digit.plus
  have hpositive : (positive [.range 49 57]).Denotes (oneOf fun c => '1' ≤ c ∧ c ≤ '9') :=
    Regex.denotes_one fun _ => contains_range
  have hwhole := (denotes_character '0').alt (hpositive.cat denotes_digit.star)
  have hfraction := ((denotes_character '.').cat hdigits).perhaps
  have hsign := (denotes_either '+' '-').perhaps
  have hexponent := ((denotes_either 'e' 'E').cat (hsign.cat hdigits)).perhaps
  exact (denotes_character '-').perhaps.cat (hwhole.cat (hfraction.cat hexponent))

/--
The grammar accepts exactly the tokens of the language as scalars of a kind.
-/
theorem accepts_iff_mem_language {kind : ScalarKind} {token : String}
    : kind.Accepts token ↔ token.toList ∈ kind.language := by
  rw [accepts_iff]
  cases kind with
  | string =>
    rw [← denotes_stringRegex.matchesWhole]
    simp [elements, Element.accepts, Element.regexAccepts]
  | number =>
    rw [← denotes_numberRegex.matchesWhole]
    simp [elements, Element.accepts, Element.regexAccepts]
  | constant =>
    show _ ↔ ∃ name ∈ constants, token.toList = name.toList
    simp [elements, Element.accepts, constants, String.toList_inj]

end ScalarKind

end Json
end TokenGrammar
