import TokenGrammar.Node
import TokenGrammar.Source

/-!
This module contains actions, the functions that turn the node of a match into its result. An action
may look at the grammar that is being parsed and call it, so what it does is described by a script:
the calls that it makes one after another, each step depending on the answers so far.
-/

namespace TokenGrammar

/--
A match: the tokens that it consumed, and its result.
-/
structure Match where
  tokens : List String
  result : Value

/--
What an action does from some point on.
-/
inductive Script where
  /-- Return a result. -/
  | done (result : Value)
  /-- Fail. -/
  | fail (fault : Fault)
  /-- Declare a rule. -/
  | declare (name options : Value) (action : Callable (Node → String → Script))
    (next : Except Fault Unit → Script)
  /-- Match a source against a rule. -/
  | parseAs (name : Value) (source : Source) (next : Except Fault (Option Match) → Script)
  /-- Ask for the names of the rules. -/
  | names (next : List String → Script)

/--
An action is called with the node of a match and the name of the rule that matched. What it does depends
on these and on the answers to the calls that it makes, not on anything that it has done before.
-/
abbrev Action := Node → String → Script

namespace Action

/--
The action that returns the node as it is.
-/
def identity : Action :=
  fun node _ => .done node.toValue

/--
The action that applies a function which does not call the grammar.
-/
def pure (f : Node → String → Except Fault Value) : Action :=
  fun node name => match f node name with
    | .ok result => .done result
    | .error fault => .fail fault

/--
The action that applies a function to the node alone.
-/
def onNode (f : Node → Except Fault Value) : Action :=
  .pure fun node _ => f node

end Action
end TokenGrammar
