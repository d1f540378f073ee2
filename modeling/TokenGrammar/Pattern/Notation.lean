import TokenGrammar.Pattern.Bracket
import TokenGrammar.Pattern.Draft

/-!
This module contains the notation of patterns: `Regex.ofText` reads a pattern text from left to right,
one lexeme and what belongs to it at a time.
-/

namespace TokenGrammar
namespace Pattern

namespace Reading

/--
Hand on an answer, or refuse the pattern.
-/
def ofExcept : Except PatternFault α → Reading α
  | .ok a => pure a
  | .error fault => fail fault

/--
Read up to a line feed and over it, or to the end.
-/
def line : Reading Unit :=
  fun input => match _h : input.dropWhile (· != .plain '\n') with
    | [] => if input.contains .dangling then .error .malformed else .ok ⟨(), [], Nat.zero_le _⟩
    | _ :: rest => .ok ⟨(), rest, by
        have := (List.dropWhile_sublist (· != .plain '\n') (l := input)).length_le
        rw [_h] at this
        simp only [List.length_cons] at this
        omega⟩

end Reading

/--
Whether a text may name a group: letters, digits and low lines of any script, no digit in front.
-/
def isGroupName : List Char → Bool
  | [] => false
  | c :: rest => Text.isWordChar c && !Text.isDigit c && rest.all Text.isWordChar

namespace Draft

/--
Read a group name up to the given character.
-/
def groupName (stop : Char) : Reading String := do
  let name ← Reading.through stop
  if !isGroupName name then .refuse
  return String.ofList name

/--
Read the rest of a choice by a remembered text up to its first branch.
-/
def openWhether (draft : Draft) : Reading Draft := do
  let name ← Reading.through ')'
  let text := String.ofList name
  let (draft, index) ← if isGroupName name then
      match draft.indexOf? text with
      | some index => pure (draft, index)
      | none => .refuse
    else match Numeral.readInteger text with
      | .ok (.ofNat (index + 1)) =>
        pure ({ draft with conditions := (index + 1) :: draft.conditions }, index + 1)
      | _ => .refuse
  if !draft.visibleBehind index then .refuse
  return draft.openGroup (.whether index) draft.flags

/--
Read what follows an opening parenthesis with a question mark.
-/
def openSpecial (draft : Draft) : Reading Draft := do
  let .plain c ← Reading.expect | .refuse
  match c with
  | ':' => return draft.openGroup .plain draft.flags
  | '>' => return draft.openGroup .atomic draft.flags
  | '=' => return draft.openGroup (.ahead false) draft.flags
  | '!' => return draft.openGroup (.ahead true) draft.flags
  | '<' =>
    match ← Reading.expect with
    | .plain '=' => return draft.openGroup (.behind false draft.groups.length) draft.flags
    | .plain '!' => return draft.openGroup (.behind true draft.groups.length) draft.flags
    | _ => .refuse
  | '#' =>
    let _ ← Reading.through ')'
    return draft
  | '(' => draft.openWhether
  | 'P' =>
    match ← Reading.expect with
    | .plain '<' =>
      let name ← groupName '>'
      if (draft.indexOf? name).isSome then .refuse
      return draft.openRemembered (some name)
    | .plain '=' =>
      let name ← groupName ')'
      let some index := draft.indexOf? name | .refuse
      .ofExcept (draft.addRecalled index)
    | _ => .refuse
  | c =>
    match ← FlagEffect.read c with
    | .forWhole added => .ofExcept (draft.setWhole added)
    | .forGroup added removed => return draft.openGroup .plain (draft.flags.change added removed)

/--
Repeat the last item; the mark behind the repetition comes next.
-/
def readRepetition (draft : Draft) (rounds : Rounds) : Reading Draft := do
  let _ ← Reading.ofExcept (draft.repeatLast rounds .greedy)
  .ofExcept (draft.repeatLast rounds (← Greed.read))

/--
Add an escape.
-/
def addEscape (draft : Draft) : Escape → Except PatternFault Draft
  | .code n => .ok (draft.add (.one (.single draft.flags.folding n)))
  | .named category negated => .ok (draft.add (.one
      ⟨[.named category draft.flags.ascii negated], false, draft.flags.folding⟩))
  | .textStart => .ok (draft.push (.anchor .textStart) .anchor)
  | .textEnd => .ok (draft.push (.anchor .textEnd) .anchor)
  | .wordEdge negated => .ok (draft.push (.anchor (.wordEdge draft.flags.ascii negated)) .anchor)
  | .recalled index => draft.addRecalled index

/--
Read what a character without a backslash begins.
-/
def readPlain (draft : Draft) (c : Char) : Reading Draft :=
  match c with
  | '|' => .ofExcept draft.nextBranch
  | ')' => .ofExcept draft.closeGroup
  | '(' => do
    if ← Reading.accept '?' then draft.openSpecial else return draft.openRemembered none
  | '[' => do return draft.add (.one (← Bracket.read draft.flags))
  | '.' => return draft.add (.one (if draft.flags.dotAll then .all else .exceptLineFeed))
  | '^' => return draft.push (.anchor (if draft.flags.multiLine then .lineStart else .textStart)) .anchor
  | '$' => return draft.push (.anchor (if draft.flags.multiLine then .lineEnd else .lastLineEnd)) .anchor
  | '*' => draft.readRepetition ⟨0, none⟩
  | '+' => draft.readRepetition ⟨1, none⟩
  | '?' => draft.readRepetition ⟨0, some 1⟩
  | '\x7b' => do
    match ← Rounds.readBraces with
    | some rounds => draft.readRepetition rounds
    | none => return draft.add (.one (.single draft.flags.folding c.toNat))
  | c => return draft.add (.one (.single draft.flags.folding c.toNat))

/--
Whether a character is left out where blanks do not count.
-/
def isLayout (c : Char) : Bool :=
  c == ' ' || (9 ≤ c.toNat && c.toNat ≤ 13)

/--
Read what a lexeme begins.
-/
def step (draft : Draft) : Lexeme → Reading Draft
  | .dangling => .refuse
  | .escaped c => do .ofExcept (draft.addEscape (← Escape.read c))
  | .plain c =>
    if draft.flags.verbose && isLayout c then return draft
    else if draft.flags.verbose && c == '#' then do
      Reading.line
      return draft
    else draft.readPlain c

/--
Read lexemes to the end.
-/
def readAll (draft : Draft) : List Lexeme → Except PatternFault Draft
  | [] => .ok draft
  | lexeme :: rest =>
    match draft.step lexeme rest with
    | .error fault => .error fault
    | .ok ⟨draft, rest', _⟩ => draft.readAll rest'
termination_by input => input.length
decreasing_by
  simp only [List.length_cons]
  omega

/--
How deep groups are nested where lexemes are read, up to the end or to the place where they are
refused.
-/
def nesting (draft : Draft) : List Lexeme → Nat
  | [] => draft.outer.length
  | lexeme :: rest =>
    match draft.step lexeme rest with
    | .error _ => draft.outer.length
    | .ok ⟨next, rest', _⟩ => max draft.outer.length (next.nesting rest')
termination_by input => input.length
decreasing_by
  simp only [List.length_cons]
  omega

end Draft

/--
Whether groups nest deeper than a limit in a pattern text, up to the place where it is refused if it is.
-/
def nestsDeeper (limit : Nat) (text : String) : Bool :=
  -- most texts have so few parentheses that they need not be gone through
  limit < text.toList.count '(' && limit < Draft.nesting {} (Lexeme.ofChars text.toList)

/--
The pattern that a text writes.
-/
def Regex.ofText (text : String) : Except PatternFault Regex := do
  let draft ← Draft.readAll {} (Lexeme.ofChars text.toList)
  draft.finish

end Pattern
end TokenGrammar
