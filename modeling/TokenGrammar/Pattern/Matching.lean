import TokenGrammar.Pattern.Regex

/-!
This module contains the search for a match of a pattern in a token. A pattern is run with what has to
match behind it, so that a choice that does not lead to a match of the whole token is taken back.
-/

namespace TokenGrammar
namespace Pattern

/--
A place in a token, with the texts remembered on the way to it.
-/
structure Place where
  /-- The characters before the place, the nearest first. -/
  before : List Char
  /-- The characters after the place. -/
  rest : List Char
  /-- The number of characters after the place. -/
  left : Nat
  /-- The remembered texts by group number, the latest first. -/
  remembered : List (Nat × List Char)
  left_eq : left = rest.length

namespace Place

/--
The place at the start of a token.
-/
def start (token : List Char) : Place := ⟨[], token, token.length, [], rfl⟩

/--
The place behind the next character, which has to lie in the set.
-/
def advance? (set : CharSet) : Place → Option Place
  | ⟨_, [], _, _, _⟩ => none
  | ⟨before, c :: rest, left, remembered, left_eq⟩ =>
    if set.contains c then some ⟨c :: before, rest, left - 1, remembered, by simp [left_eq]⟩ else none

/--
The place `count` characters further back.
-/
def back? (place : Place) (count : Nat) : Option Place :=
  if h : count ≤ place.before.length then
    some ⟨place.before.drop count, (place.before.take count).reverse ++ place.rest,
      count + place.left, place.remembered, by simp [place.left_eq, h]⟩
  else none

/--
The place behind a text, which has to come next but for case.
-/
def skip? (folding : Folding) : List Char → Place → Option Place
  | [], place => some place
  | _ :: _, ⟨_, [], _, _, _⟩ => none
  | c :: text, ⟨before, d :: rest, left, remembered, left_eq⟩ =>
    if folding.key c.toNat == folding.key d.toNat then
      skip? folding text ⟨d :: before, rest, left - 1, remembered, by simp [left_eq]⟩
    else none

/--
The place with other remembered texts.
-/
def withRemembered (place : Place) (remembered : List (Nat × List Char)) : Place :=
  { place with remembered := remembered }

/--
Remember under a number the text between an earlier place and this one.
-/
def remember (place earlier : Place) (index : Nat) : Place :=
  let text := (place.before.take (earlier.left - place.left)).reverse
  place.withRemembered ((index, text) :: place.remembered)

/--
Whether the place is where an anchor asks it to be.
-/
def isAt (place : Place) : Anchor → Bool
  | .textStart => place.before.isEmpty
  | .textEnd => place.rest.isEmpty
  | .lineStart => place.before.isEmpty || place.before.head? == some '\n'
  | .lineEnd => place.rest.isEmpty || place.rest.head? == some '\n'
  | .lastLineEnd => place.rest.isEmpty || place.rest == ['\n']
  | .wordEdge ascii negated =>
    let isWord (c : Option Char) : Bool := c.any (Category.word.contains ascii)
    !(place.before.isEmpty && place.rest.isEmpty)
      && ((isWord place.before.head? != isWord place.rest.head?) != negated)

end Place

/--
What has to match from a place on.
-/
abbrev Continuation := Place → Option Place

/--
A pattern as a search: given what has to match behind it, the first way to match both.
-/
abbrev Search := Continuation → Continuation

namespace Search

/--
The body a fixed number of times.
-/
def exactly (body : Search) : Nat → Search
  | 0, next, place => next place
  | more + 1, next, place => body (exactly body more next) place

/--
The body as often as possible, with fewer rounds if that does not lead to a match. A round that
matches nothing is the last one.
-/
def greedy (body : Search) (next : Continuation) (most : Option Nat) (place : Place) : Option Place :=
  if most == some 0 then next place
  else
    body (fun place' =>
      if place'.left < place.left then greedy body next (most.map (· - 1)) place'
      else next place') place
    <|> next place
termination_by place.left

/--
The body as rarely as possible, with more rounds if that does not lead to a match. A round that
matches nothing is the last one.
-/
def lazy (body : Search) (next : Continuation) (most : Option Nat) (place : Place) : Option Place :=
  next place
  <|>
  if most == some 0 then none
  else
    body (fun place' =>
      if place'.left < place.left then lazy body next (most.map (· - 1)) place'
      else next place') place
termination_by place.left

/--
The first match of the body, which is not taken back.
-/
def atomic (body : Search) : Search :=
  fun next place => (body some place).bind next

/--
The body as often as possible, without taking back a round. A round that matches nothing is the last
one.
-/
def possessive (body : Search) (next : Continuation) (most : Option Nat) (place : Place) :
    Option Place :=
  if most == some 0 then next place
  else match body some place with
    | none => next place
    | some place' =>
      if place'.left < place.left then possessive body next (most.map (· - 1)) place'
      else next place'
termination_by place.left

/--
At least `least` and at most `most` rounds of the body.
-/
def rounds (body : Search) (greed : Greed) (least : Nat) (most : Option Nat) : Search :=
  fun next =>
    let optional := most.map (· - least)
    match greed with
    | .greedy => exactly body least (greedy body next optional)
    | .lazy => exactly body least (lazy body next optional)
    | .possessive => exactly (atomic body) least (possessive body next optional)

/--
A condition on the text after the place, or on the `width` characters before it. Texts remembered
while it is met stay remembered.
-/
def look (body : Search) (ahead negated : Bool) (width : Nat) : Search :=
  fun next place =>
    let found := (if ahead then some place else place.back? width).bind (body some)
    match negated, found with
    | true, none => next place
    | false, some place' => next (place.withRemembered place'.remembered)
    | _, _ => none

end Search

namespace Regex

/--
The search that a pattern stands for.
-/
def search : Regex → Search
  | .empty => fun next place => next place
  | .one set => fun next place => (Place.advance? set place).bind next
  | .anchor spot => fun next place => if place.isAt spot then next place else none
  | .cat first second => fun next place => first.search (second.search next) place
  | .alt first second => fun next place => first.search next place <|> second.search next place
  | .group index body => fun next place =>
    body.search (fun place' => next (place'.remember place index)) place
  | .recalled index _ folding => fun next place =>
    match place.remembered.lookup index with
    | some text => (place.skip? folding text).bind next
    | none => none
  | .rounds greed least most body => Search.rounds body.search greed least most
  | .atomic body => Search.atomic body.search
  | .look ahead negated body => Search.look body.search ahead negated body.width.least
  | .whether index yes no => fun next place =>
    if (place.remembered.lookup index).isSome then yes.search next place else no.search next place

/--
Whether a pattern matches the whole of a text.
-/
def matchesWhole (regex : Regex) (text : String) : Bool :=
  (regex.search (fun place => if place.rest.isEmpty then some place else none)
    (Place.start text.toList)).isSome

end Regex

end Pattern
end TokenGrammar
