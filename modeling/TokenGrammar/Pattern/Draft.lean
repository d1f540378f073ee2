import TokenGrammar.Pattern.Flags
import TokenGrammar.Pattern.Regex
import TokenGrammar.Pattern.Repetition

/-!
This module contains the part of a pattern that has been read so far: the groups that are open, each
with its finished branches and the items of its current branch, and what is known of the groups whose
text can be recalled.
-/

namespace TokenGrammar
namespace Pattern

/--
Whether a repetition may follow an item, and if not, why.
-/
inductive Repeatable where
  | yes
  | anchor
  | repeated
  deriving DecidableEq, Repr

/--
One part of a branch.
-/
structure Item where
  regex : Regex
  repeatable : Repeatable := .yes

/--
What an opening parenthesis begins. The whole pattern counts as the outermost group.
-/
inductive Opener where
  | whole
  | plain
  | remembered (index : Nat)
  | atomic
  | ahead (negated : Bool)
  /-- A condition on the text before, with the number of groups that were open or closed before it. -/
  | behind (negated : Bool) (known : Nat)
  | whether (index : Nat)
  deriving DecidableEq, Repr

/--
A group that is open. Branches and items are kept with the last one first.
-/
structure Frame where
  opener : Opener
  flags : Flags
  branches : List Regex := []
  items : List Item := []

/--
The items of the current branch as one pattern.
-/
def Frame.branch (frame : Frame) : Regex :=
  .sequence (frame.items.reverse.map Item.regex)

/--
All branches of a group, in order.
-/
def Frame.allBranches (frame : Frame) : List Regex :=
  frame.branches.reverse ++ [frame.branch]

/--
What a group means once it is closed.
-/
def Frame.regex (frame : Frame) : Regex :=
  let body := Regex.choice frame.allBranches
  match frame.opener with
  | .whole | .plain => body
  | .remembered index => .group index body
  | .atomic => .atomic body
  | .ahead negated => .look true negated body
  | .behind negated _ => .look false negated body
  | .whether index => match frame.allBranches with
    | [yes, no] => .whether index yes no
    | _ => .whether index body .empty

/--
The part of a pattern that has been read so far.
-/
structure Draft where
  /-- The innermost open group. -/
  current : Frame := ⟨.whole, {}, [], []⟩
  /-- The open groups around it, the innermost first. -/
  outer : List Frame := []
  /-- The widths of the numbered groups, from number one; a group that is still open has none. -/
  groups : List (Option Width) := []
  /-- The numbers of the groups that have a name. -/
  names : List (String × Nat) := []
  /-- The numbers that conditions on remembered texts mention. -/
  conditions : List Nat := []
  /-- The flags that were set for the whole pattern. -/
  wholeFlags : List Flag := []

namespace Draft

/--
The flags in force.
-/
def flags (draft : Draft) : Flags := draft.current.flags

/--
Add an item to the current branch.
-/
def push (draft : Draft) (regex : Regex) (repeatable : Repeatable) : Draft :=
  { draft with current := { draft.current with items := ⟨regex, repeatable⟩ :: draft.current.items } }

/--
Add an item that may be repeated.
-/
def add (draft : Draft) (regex : Regex) : Draft :=
  draft.push regex .yes

/--
Repeat the last item of the current branch. There must be one, it must not be an anchor, and it must
not have been repeated before.
-/
def repeatLast (draft : Draft) (rounds : Rounds) (greed : Greed) : Except PatternFault Draft :=
  match draft.current.items with
  | ⟨regex, .yes⟩ :: items =>
    let item := ⟨.rounds greed rounds.least rounds.most regex, .repeated⟩
    .ok { draft with current := { draft.current with items := item :: items } }
  | _ => .error .malformed

/--
Whether the flags that were set for the whole pattern contradict each other.
-/
def flagsClash (draft : Draft) : Bool :=
  !FlagEffect.compatible draft.wholeFlags

/--
Begin another branch of the innermost group. A choice by a remembered text has at most two.
-/
def nextBranch (draft : Draft) : Except PatternFault Draft :=
  let frame := draft.current
  match frame.opener, frame.branches with
  | .whether _, _ :: _ => .error .malformed
  | _, branches =>
    .ok { draft with current := { frame with branches := frame.branch :: branches, items := [] } }

/--
Open a group, with the given flags inside.
-/
def openGroup (draft : Draft) (opener : Opener) (flags : Flags) : Draft :=
  { draft with current := ⟨opener, flags, [], []⟩, outer := draft.current :: draft.outer }

/--
Open a group whose text is remembered, under a name too if one is given.
-/
def openRemembered (draft : Draft) (name : Option String) : Draft :=
  let index := draft.groups.length + 1
  let opened := draft.openGroup (.remembered index) draft.flags
  { opened with
    groups := draft.groups ++ [none]
    names := (name.map (·, index)).toList ++ draft.names }

/--
Close the innermost group.
-/
def closeGroup (draft : Draft) : Except PatternFault Draft :=
  match draft.outer with
  -- here the whole pattern ends early, and its flags are looked at before what is left over
  | [] => .error (if draft.flagsClash then .incompatibleFlags else .malformed)
  | frame :: outer =>
    let regex := draft.current.regex
    let groups := match draft.current.opener with
      | .remembered index => draft.groups.set (index - 1) (some regex.width)
      | _ => draft.groups
    .ok ({ draft with current := frame, outer := outer, groups := groups }.add regex)

/--
The number of groups that the outermost open condition on the text before may refer to.
-/
def knownBehind? (draft : Draft) : Option Nat :=
  (draft.current :: draft.outer).reverse.findSome? fun frame => match frame.opener with
    | .behind _ known => some known
    | _ => none

/--
The width of a numbered group that is closed.
-/
def closedWidth? (draft : Draft) (index : Nat) : Option Width :=
  if index == 0 then none else (draft.groups[index - 1]?).join

/--
Whether a group may be referred to from within the open conditions on the text before: it must have
been closed before the outermost of them began.
-/
def visibleBehind (draft : Draft) (index : Nat) : Bool :=
  match draft.knownBehind? with
  | none => true
  | some known => (draft.closedWidth? index).isSome && index ≤ known

/--
Recall the text of a numbered group, which must be closed.
-/
def addRecalled (draft : Draft) (index : Nat) : Except PatternFault Draft :=
  match draft.closedWidth? index with
  | some width =>
    if draft.visibleBehind index then .ok (draft.add (.recalled index width draft.flags.folding))
    else .error .malformed
  | none => .error .malformed

/--
The number of the group with a name.
-/
def indexOf? (draft : Draft) (name : String) : Option Nat :=
  draft.names.lookup name

/--
Set flags for the whole pattern, which is possible only before anything else.
-/
def setWhole (draft : Draft) (added : List Flag) : Except PatternFault Draft :=
  let frame := draft.current
  if draft.outer.isEmpty && frame.branches.isEmpty && frame.items.isEmpty then
    .ok { draft with
      current := { frame with flags := frame.flags.change added [] }
      wholeFlags := draft.wholeFlags ++ added }
  else .error .malformed

/--
Whether the flags for the whole pattern allow the finished pattern: a template holds no repetition.
-/
def permits (draft : Draft) (regex : Regex) : Bool :=
  !(draft.wholeFlags.contains .template && regex.repeats)

/--
The pattern that a finished draft means.
-/
def finish (draft : Draft) : Except PatternFault Regex :=
  if !draft.outer.isEmpty then .error .malformed
  else if draft.flagsClash then .error .incompatibleFlags
  else if draft.conditions.any (draft.groups.length < ·) then .error .malformed
  else
    let regex := draft.current.regex
    if regex.lookBehindsFixed && draft.permits regex then .ok regex else .error .malformed

end Draft

end Pattern
end TokenGrammar
