import TokenGrammar.Action
import TokenGrammar.Text.Blank

/-!
This module contains rules: a name, the options that are tried in order, and the action for the option
that matches. An option is written as a text and means the list of its words; the text without words
is the empty option, which always matches.
-/

namespace TokenGrammar

/--
A notice that the options behind an empty one can never be reached.
-/
structure Warning where
  rule : String
  /-- The place of the empty option. -/
  index : Nat
  /-- The number of options behind it. -/
  shadowed : Nat
  deriving DecidableEq, Repr

/--
The wording of a notice.
-/
def Warning.message (warning : Warning) : String :=
  let ⟨rule, index, shadowed⟩ := warning
  s!"rule '{rule}': empty option #{index} shadows the {shadowed} option(s) after it"

/--
A named rule.
-/
structure Rule where
  name : String
  /-- The options as they were written. -/
  written : List String := []
  /-- The elements of each option. -/
  options : List (List String) := []
  /-- The action, if one was given. -/
  action : Option Action := none

namespace Rule

/--
The options that a value writes: a text is a single one, a list or tuple must hold texts only.
-/
def readOptions (rule : String) : Value → Except Fault (List String)
  | .text option => .ok [option]
  | .list options | .tuple options => match options.mapM Value.text? with
    | some options => .ok options
    | none => .error (.nonTextOption rule)
  | given => .error (.badOptions rule given.typeName)

/--
The notice about the first empty option that is not the last option.
-/
def shadowing? (rule : String) (options : List (List String)) : Option Warning :=
  (options.dropLast.findIdx? List.isEmpty).map fun index =>
    ⟨rule, index, options.length - index - 1⟩

/--
Replace the options of a rule.
-/
def withOptions (rule : Rule) (given : Value) : Except Fault (Rule × Option Warning) := do
  let written ← readOptions rule.name given
  let options := written.map Text.words
  return ({ rule with written := written, options := options }, shadowing? rule.name options)

/--
Replace the action of a rule; the lack of one restores the action that returns the node.
-/
def withAction (rule : Rule) (given : Callable Action) : Except Fault Rule :=
  match given with
  | .absent => .ok { rule with action := none }
  | .function action => .ok { rule with action := some action }
  | .unfit _ => .error (.badAction rule.name)

/--
The name that a value is, which has to be a text and not an empty one.
-/
def readName : Value → Except Fault String
  | .text name => if name.isEmpty then .error (.badRuleName (.text name)) else .ok name
  | given => .error (.showing given (.badRuleName given))

/--
A rule from its name, options and action, which are checked in this order. A notice is given even when
the action turns out to be unfit.
-/
def make (name options : Value) (action : Callable Action) : Option Warning × Except Fault Rule :=
  match readName name with
  | .error fault => (none, .error fault)
  | .ok name => match ({ name := name } : Rule).withOptions options with
    | .error fault => (none, .error fault)
    | .ok (rule, warning) => (warning, rule.withAction action)

/--
Whether some option of a rule is empty.
-/
def hasEmptyOption (rule : Rule) : Bool :=
  rule.options.any List.isEmpty

/--
What a rule does with the node of a match.
-/
def act (rule : Rule) (node : Node) : Script :=
  rule.action.getD Action.identity node rule.name

/--
The text that shows a rule.
-/
def describe (rule : Rule) : String :=
  "Rule(" ++ Text.quoted rule.name ++ ", " ++ (Value.texts rule.written).written ++ ")"

end Rule
end TokenGrammar
