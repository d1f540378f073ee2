import TokenGrammar.Element
import TokenGrammar.Proofs.Pattern.Denotation

/-!
This module contains regular expressions as they are written: characters, sets of characters, branches of
repeated parts one after another, and groups of branches. An expression has the language that is usual for it,
which does not depend on how it is read or searched for.
-/

open scoped Computability

namespace TokenGrammar
namespace Pattern

/--
Behind a backslash a letter may stand for a control character, and what is neither a letter nor a digit of ASCII
stands for itself.
-/
def Escape.Writes (c code : Char) : Prop :=
  c.isAlphanum = false ∧ code = c ∨ control? c = some code.toNat

/--
A character as a pattern mentions it, by itself or behind a backslash.
-/
inductive Letter where
  | plain (c : Char) (h : c ≠ '\\')
  | escaped (c code : Char) (h : Escape.Writes c code)

namespace Letter

def char : Letter → Char
  | .plain c _ => c
  | .escaped _ code _ => code

def lexeme : Letter → Lexeme
  | .plain c _ => .plain c
  | .escaped c _ _ => .escaped c

end Letter

/--
The letter that stands for a class of characters behind a backslash.
-/
def Category.letter : Category → Bool → Char
  | .digit, false => 'd'
  | .digit, true => 'D'
  | .blank, false => 's'
  | .blank, true => 'S'
  | .word, false => 'w'
  | .word, true => 'W'

/--
A part of a set between square brackets.
-/
inductive Member where
  | one (letter : Letter)
  | range (first last : Letter) (le : first.char.toNat ≤ last.char.toNat)
      (bracket : last.lexeme ≠ .plain ']')
  | named (category : Category) (negated : Bool)

namespace Member

def Contains (c : Char) : Member → Prop
  | .one letter => c = letter.char
  | .range first last _ _ => first.char.toNat ≤ c.toNat ∧ c.toNat ≤ last.char.toNat
  | .named category negated => (category.contains false c = true) ↔ negated = false

/--
The lexemes of a member: the first one, and those behind it.
-/
def lexemes : Member → Lexeme × List Lexeme
  | .one letter => (letter.lexeme, [])
  | .range first last _ _ => (first.lexeme, [.plain '-', last.lexeme])
  | .named category negated => (.escaped (category.letter negated), [])

def IsRange : Member → Prop
  | .range .. => True
  | _ => False

/--
One member may stand behind another one: it does not close the set, and it does not make a range of the other.
-/
def Follows (previous next : Member) : Prop :=
  next.lexemes.1 ≠ .plain ']' ∧ (previous.IsRange ∨ next.lexemes.1 ≠ .plain '-')

end Member

/--
A set between square brackets. Behind the last member a minus sign stands for itself.
-/
structure Brackets where
  negated : Bool
  first : Member
  others : List Member
  minus : Bool
  caret : negated = true ∨ first.lexemes.1 ≠ .plain '^'
  follows : (first :: others).IsChain Member.Follows

namespace Brackets

def Lists (brackets : Brackets) (c : Char) : Prop :=
  (∃ member ∈ brackets.first :: brackets.others, member.Contains c) ∨ brackets.minus = true ∧ c = '-'

def Contains (brackets : Brackets) (c : Char) : Prop := brackets.Lists c ↔ brackets.negated = false

/--
The members and the closing bracket.
-/
def inside (brackets : Brackets) : List Lexeme :=
  (brackets.first :: brackets.others).flatMap (fun member => member.lexemes.1 :: member.lexemes.2)
    ++ ((if brackets.minus then [.plain '-'] else []) ++ [.plain ']'])

def lexemes (brackets : Brackets) : List Lexeme :=
  .plain '[' :: ((if brackets.negated then [.plain '^'] else []) ++ brackets.inside)

end Brackets

/--
The characters that have a meaning of their own outside of square brackets.
-/
def specials : List Char := ['.', '^', '$', '*', '+', '?', '\x7b', '[', '|', '(', ')']

/--
What asks for one character: the character itself, all but the line feed, a named class, or a set.
-/
inductive Single where
  | one (letter : Letter) (h : ∀ c ∈ specials, letter.lexeme ≠ .plain c)
  | any
  | named (category : Category) (negated : Bool)
  | set (brackets : Brackets)

namespace Single

def Contains (c : Char) : Single → Prop
  | .one letter _ => c = letter.char
  | .any => c ≠ '\n'
  | .named category negated => (category.contains false c = true) ↔ negated = false
  | .set brackets => brackets.Contains c

def lexemes : Single → List Lexeme
  | .one letter _ => [letter.lexeme]
  | .any => [.plain '.']
  | .named category negated => [.escaped (category.letter negated)]
  | .set brackets => brackets.lexemes

end Single

/--
How often a part of a branch is asked for; without a mark behind it just once.
-/
inductive Times where
  | once
  | star
  | plus
  | perhaps

namespace Times

def language (L : Language Char) : Times → Language Char
  | .once => L
  | .star => L∗
  | .plus => L * L∗
  | .perhaps => L + 1

def lexemes : Times → List Lexeme
  | .once => []
  | .star => [.plain '*']
  | .plus => [.plain '+']
  | .perhaps => [.plain '?']

end Times

/--
The parts that an expression consists of: atoms are put together to branches, and branches to a whole.
-/
inductive Part where
  | atom
  | branch
  | whole

/--
Regular expressions. A branch may be empty. The text of a group may be remembered or not.
-/
inductive Expression : Part → Type where
  | one (single : Single) : Expression .atom
  | group (remembered : Bool) (body : Expression .whole) : Expression .atom
  | empty : Expression .branch
  | cat (atom : Expression .atom) (times : Times) (rest : Expression .branch) : Expression .branch
  | last (branch : Expression .branch) : Expression .whole
  | alt (branch : Expression .branch) (others : Expression .whole) : Expression .whole

namespace Expression

/--
The language of an expression.
-/
def language : Expression part → Language Char
  | .one single => oneOf fun c => single.Contains c
  | .group _ body => body.language
  | .empty => 1
  | .cat atom times rest => times.language atom.language * rest.language
  | .last branch => branch.language
  | .alt branch others => branch.language + others.language

/--
The lexemes that an expression is written with.
-/
def lexemes : Expression part → List Lexeme
  | .one single => single.lexemes
  | .group remembered body =>
    .plain '(' :: ((if remembered then [] else [.plain '?', .plain ':'])
      ++ (body.lexemes ++ [.plain ')']))
  | .empty => []
  | .cat atom times rest => atom.lexemes ++ (times.lexemes ++ rest.lexemes)
  | .last branch => branch.lexemes
  | .alt branch others => branch.lexemes ++ .plain '|' :: others.lexemes

/--
The text of an expression.
-/
def text (expression : Expression part) : String :=
  String.ofList (expression.lexemes.flatMap Lexeme.chars)

/--
The pattern element with the expression between its slashes.
-/
def element (expression : Expression part) : String := "/" ++ expression.text ++ "/"

end Expression
end Pattern
end TokenGrammar
