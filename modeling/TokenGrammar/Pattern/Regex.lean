import TokenGrammar.Pattern.CharSet

/-!
This module contains the abstract form of a pattern and the widths of the texts it can match.
-/

namespace TokenGrammar
namespace Pattern

/--
The least and the greatest length of a text that a part of a pattern can match. Lengths saturate at
`Width.unbounded`, which stands for all that are at least as large.
-/
structure Width where
  least : Nat
  greatest : Nat
  deriving DecidableEq, Repr

namespace Width

/--
The length that stands for "no bound"; no repetition may be counted this high.
-/
def unbounded : Nat := 4294967295

/--
Cut lengths off at the largest ones that are kept.
-/
def saturate (w : Width) : Width :=
  ⟨min w.least (unbounded - 1), min w.greatest unbounded⟩

/--
The width of one text after another.
-/
def add (v w : Width) : Width :=
  saturate ⟨v.least + w.least, v.greatest + w.greatest⟩

/--
The width of either of two texts.
-/
def join (v w : Width) : Width :=
  ⟨min v.least w.least, max v.greatest w.greatest⟩

/--
The width of at least `least` and at most `most` repetitions.
-/
def times (w : Width) (least : Nat) (most : Option Nat) : Width :=
  saturate ⟨w.least * least, w.greatest * most.getD unbounded⟩

/--
The width of the empty text.
-/
def zero : Width := ⟨0, 0⟩

end Width

/--
The places in a token that a pattern can ask for without matching any character.
-/
inductive Anchor where
  | textStart
  | textEnd
  | lineStart
  | lineEnd
  /-- The end, or before a line feed that ends the text. -/
  | lastLineEnd
  /-- Between a word character and another one, or the opposite. -/
  | wordEdge (ascii negated : Bool)
  deriving DecidableEq, Repr

/--
How a repetition chooses the number of rounds: as many as possible, as few as possible, or as many as
possible without ever giving one back.
-/
inductive Greed where
  | greedy
  | lazy
  | possessive
  deriving DecidableEq, Repr

/--
The abstract form of a pattern.
-/
inductive Regex where
  | empty
  | one (set : CharSet)
  | anchor (anchor : Anchor)
  | cat (first second : Regex)
  | alt (first second : Regex)
  /-- A part whose matched text is remembered under a number. -/
  | group (index : Nat) (body : Regex)
  /-- The text remembered under a number, which has the given width. -/
  | recalled (index : Nat) (width : Width) (folding : Folding)
  /-- At least `least` and, if there is a bound, at most `most` rounds of the body. -/
  | rounds (greed : Greed) (least : Nat) (most : Option Nat) (body : Regex)
  /-- The body without the alternatives that it leaves untried. -/
  | atomic (body : Regex)
  /-- A condition on the text after this place, or right before it. -/
  | look (ahead negated : Bool) (body : Regex)
  /-- A choice by whether a text is remembered under a number. -/
  | whether (index : Nat) (yes no : Regex)
  deriving DecidableEq, Repr

namespace Regex

/--
One part after another.
-/
def sequence : List Regex → Regex
  | [] => .empty
  | [part] => part
  | part :: parts => .cat part (sequence parts)

/--
The first of several branches that leads to a match.
-/
def choice : List Regex → Regex
  | [] => .empty
  | [branch] => branch
  | branch :: branches => .alt branch (choice branches)

/--
The width of the texts that a pattern matches.
-/
def width : Regex → Width
  | .empty | .anchor _ | .look .. => .zero
  | .one _ => ⟨1, 1⟩
  | .cat first second => first.width.add second.width
  | .alt first second => first.width.join second.width
  | .group _ body | .atomic body => body.width
  | .recalled _ width _ => width
  | .rounds _ least most body => body.width.times least most
  | .whether _ yes no => yes.width.join no.width

/--
Whether every condition on the text before a place concerns a fixed number of characters.
-/
def lookBehindsFixed : Regex → Bool
  | .empty | .one _ | .anchor _ | .recalled .. => true
  | .cat first second | .alt first second | .whether _ first second =>
    first.lookBehindsFixed && second.lookBehindsFixed
  | .group _ body | .rounds _ _ _ body | .atomic body => body.lookBehindsFixed
  | .look ahead _ body =>
    body.lookBehindsFixed && (ahead || body.width.least == body.width.greatest)

/--
Whether some part of a pattern is repeated.
-/
def repeats : Regex → Bool
  | .empty | .one _ | .anchor _ | .recalled .. => false
  | .cat first second | .alt first second | .whether _ first second =>
    first.repeats || second.repeats
  | .group _ body | .atomic body | .look _ _ body => body.repeats
  | .rounds .. => true

end Regex

end Pattern
end TokenGrammar
