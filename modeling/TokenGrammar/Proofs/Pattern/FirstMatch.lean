import TokenGrammar.Proofs.Blanking
import TokenGrammar.Proofs.Pattern.Denotation

/-!
This module contains the first match of a pattern at the start of a text. What a search finds first depends on the
order in which it makes its choices; it is described by the number of characters that are left behind the match, as
a function of the text in front of which the search begins.
-/

namespace TokenGrammar
namespace Pattern

/--
The number of characters that are left behind a match, if there is one.
-/
abbrev Remainder := List Char → Option Nat

/--
What a continuation leaves depends on nothing but the text behind the place.
-/
def Continuation.Leaves (next : Continuation) (left : Remainder) : Prop :=
  ∀ place, (next place).map Place.left = left place.rest

/--
The search leaves what the run says, by what is left behind it.
-/
def Search.Runs (search : Search) (run : Remainder → Remainder) : Prop :=
  ∀ ⦃next : Continuation⦄ ⦃left : Remainder⦄, next.Leaves left →
    Continuation.Leaves (search next) (run left)

/--
One character that has the property.
-/
def single (p : Char → Prop) [DecidablePred p] (left : Remainder) : Remainder
  | [] => none
  | c :: rest => if p c then left rest else none

/--
A run that is left out if it does not lead to a match.
-/
def perhaps (run : Remainder → Remainder) (left : Remainder) : Remainder :=
  fun cs => (run left cs).or (left cs)

/--
As many rounds as possible, with fewer rounds if that does not lead to a match. A round that takes nothing is the
last one.
-/
def repeated (run : Remainder → Remainder) (left : Remainder) (cs : List Char) : Option Nat :=
  (run (fun rest => if rest.length < cs.length then repeated run left rest else left rest) cs).or (left cs)
termination_by cs.length

/--
Nothing more has to match.
-/
def allLeft : Remainder := fun cs => some cs.length

theorem leaves_some : Continuation.Leaves some allLeft := by
  intro place
  rw [Option.map_some, place.left_eq]
  rfl

theorem runs_one {set : CharSet} {p : Char → Prop} [DecidablePred p]
    (hset : ∀ c, set.contains c = true ↔ p c)
    : (Regex.one set).search.Runs (single p) := by
  intro next left h place
  cases hrest : place.rest with
  | nil =>
    rw [search_one_nil set next hrest]
    rfl
  | cons c rest =>
    rcases search_one_cons set next hrest with ⟨after, hsearch, hafter, _⟩
    rw [hsearch, single]
    by_cases hc : p c
    . rw [if_pos ((hset c).mpr hc), if_pos hc, h after, hafter]
    . rw [if_neg (mt (hset c).mp hc), if_neg hc]
      rfl

namespace Search

variable {first second body : Search} {run run' : Remainder → Remainder}

theorem Runs.cat (hfirst : first.Runs run) (hsecond : second.Runs run')
    : Runs (fun next place => first (second next) place) fun left => run (run' left) := by
  intro next left h place
  exact hfirst (hsecond h) place

theorem Runs.alt (hfirst : first.Runs run) (hsecond : second.Runs run')
    : Runs (fun next place => first next place <|> second next place)
        fun left cs => (run left cs).or (run' left cs) := by
  intro next left h place
  dsimp only
  rw [Option.orElse_eq_orElse, Option.orElse_eq_or, Option.map_or, hfirst h place, hsecond h place]

theorem Runs.greedy (h : body.Runs run)
    : Runs (fun next => Search.greedy body next none) (repeated run) := by
  intro next left hnext place
  show (Search.greedy body next none place).map Place.left = _
  induction hleft : place.left using Nat.strong_induction_on generalizing place with
  | h count ih =>
    have hrounds : Continuation.Leaves
        (fun place' => if place'.left < place.left then Search.greedy body next none place'
          else next place')
        (fun rest => if rest.length < place.rest.length then repeated run left rest else left rest) := by
      intro place'
      dsimp only
      rw [← place.left_eq, ← place'.left_eq]
      split
      . next hless => exact ih place'.left (hleft ▸ hless) place' rfl
      . exact hnext place'
    rw [Search.greedy, if_neg (by simp), Option.orElse_eq_orElse, Option.orElse_eq_or, Option.map_or,
      repeated, ← hnext place]
    exact congrArg (fun found => Option.or found ((next place).map Place.left)) (h hrounds place)

theorem Runs.perhaps (h : body.Runs run)
    : Runs (fun next => Search.greedy body next (some 1)) (Pattern.perhaps run) := by
  intro next left hnext place
  dsimp only
  rw [greedy_once, Option.map_or, h hnext place, hnext place]
  rfl

end Search

/--
The lexer that finds the first match of a pattern.
-/
def Regex.firstMatch (regex : Regex) : Text.Lexer :=
  fun cs => (regex.search some (Place.start cs)).elim 0 (cs.length - ·.left)

theorem Regex.firstMatch_eq {regex : Regex} {run : Remainder → Remainder} (h : regex.search.Runs run)
    (cs : List Char)
    : regex.firstMatch cs = (run allLeft cs).elim 0 (cs.length - ·) := by
  have hrun : (regex.search some (Place.start cs)).map Place.left = run allLeft cs :=
    h leaves_some (Place.start cs)
  unfold firstMatch
  rw [← hrun, Option.elim_map]
  rfl

/--
What is left behind the lexeme of a lexer.
-/
def behind (lexer : Text.Lexer) : Remainder :=
  fun cs => if lexer cs = 0 then none else some (cs.length - lexer cs)

theorem behind_of_zero {lexer : Text.Lexer} {cs : List Char} (h : lexer cs = 0) : behind lexer cs = none :=
  if_pos h

theorem behind_of_eq {lexer : Text.Lexer} {cs : List Char} {length : Nat} (h : lexer cs = length)
    (hne : length ≠ 0)
    : behind lexer cs = some (cs.length - length) := by
  unfold behind
  rw [h, if_neg hne]

theorem elim_behind {lexer : Text.Lexer} {cs : List Char} (h : lexer cs ≤ cs.length)
    : (behind lexer cs).elim 0 (cs.length - ·) = lexer cs := by
  by_cases hzero : lexer cs = 0
  . rw [behind_of_zero hzero, hzero]
    rfl
  . rw [behind_of_eq rfl hzero]
    exact Nat.sub_sub_self h

theorem behind_firstLexeme (lexer : Text.Lexer) (lexers : List Text.Lexer) (cs : List Char)
    : behind (Text.firstLexeme (lexer :: lexers)) cs
        = (behind lexer cs).or (behind (Text.firstLexeme lexers) cs) := by
  by_cases h : lexer cs = 0
  . unfold behind
    rw [Text.firstLexeme_of_zero h, if_pos h]
    rfl
  . have hfirst : Text.firstLexeme (lexer :: lexers) cs = lexer cs := by
      unfold Text.firstLexeme
      rw [List.find?_cons_of_pos (by simpa using h)]
      rfl
    rw [behind_of_eq hfirst h, behind_of_eq rfl h]
    rfl

/--
If something can be left behind any number of rounds, then there are as many of them as possible.
-/
theorem repeated_single (p : Char → Prop) [DecidablePred p] {left : Remainder}
    (h : ∀ cs, (left cs).isSome = true) (cs : List Char)
    : repeated (single p) left cs = left (cs.dropWhile (p ·)) := by
  induction cs with
  | nil =>
    rw [repeated]
    rfl
  | cons c rest ih =>
    rw [repeated, single, List.dropWhile_cons]
    by_cases hc : p c
    . rw [if_pos hc, if_pos (by simp), ih, Option.or_of_isSome (h _), if_pos (by simpa using hc)]
    . rw [if_neg hc, if_neg (by simpa using hc)]
      rfl

/--
The characters of a text, one after another.
-/
def spelled : List Char → Remainder → Remainder
  | [], left => left
  | c :: cs, left => single (· = c) (spelled cs left)

theorem spelled_eq (word : List Char) (left : Remainder) (cs : List Char)
    : spelled word left cs = if word.isPrefixOf cs = true then left (cs.drop word.length) else none := by
  induction word generalizing cs with
  | nil => rfl
  | cons c word ih =>
    rw [spelled]
    cases cs with
    | nil => rfl
    | cons d cs =>
      rw [single, ih]
      by_cases hc : d = c
      . simp [hc]
      . simp [hc, Ne.symm hc]

end Pattern
end TokenGrammar
