import TokenGrammar.Element
import TokenGrammar.Session

/-!
This module contains the matcher: ordered choice among the options of a rule, by recursive descent. The
cursor of a stream is never handed back; who calls the matcher moves its own cursor by the number of
tokens that were consumed.
-/

namespace TokenGrammar

/--
A way to match a rule against a stream from its cursor on.
-/
abbrev Matcher := Rule → TokenStream → Run (Option Match)

/--
The settings of a run.
-/
structure Settings where
  /-- Whether the journal gets the lines of the trace. -/
  tracing : Bool := false
  /-- How deep rules may nest, by the number of tokens in the stream. -/
  nestingLimit : Nat → Nat := fun tokens => 1000 + 8 * tokens

namespace Run

/--
Add a line to the trace, if there is one.
-/
def trace (tracing : Bool) (line : TraceLine) : Run Unit :=
  if tracing then note (.traced line) else pure ()

/--
A new node of the grammar.
-/
def newNode : Run Node := do
  let before := Event.asks (← get).journal
  note (.asked (before + 1))
  ofExcept ((← grammar).factory.newNode before)

/--
Match a rule against a source, with the rule set sealed meanwhile. A limit that is used up is reported
with the rule and with the place where the run started.
-/
def start (matcher : Matcher) (rule : Rule) (source : Source) : Run (Option Match) := do
  -- the rule set is still open while the source is split and gone through
  let stream ← ofExcept (TokenStream.openSource (← grammar).splitter source)
  sealing do
    match ← outcome (matcher rule stream) with
    | .ok answer => return answer
    | .error .exhausted => throw (.nesting rule.name stream.position)
    | .error fault => throw fault

/--
Match a source against the rule with the given name.
-/
def startNamed (matcher : Matcher) (name : Value) (source : Source) : Run (Option Match) := do
  let rule ← ofExcept ((← grammar).rules.lookup name)
  start matcher rule source

/--
Carry out a script. The runs that it starts are matched by the given matcher.
-/
def perform (matcher : Matcher) : Script → Run Value
  | .done result => pure result
  | .fail fault => throw fault
  | .declare name options action next => do
    perform matcher (next (← outcome (Grammar.declare name options action)))
  | .parseAs name source next => do
    perform matcher (next (← outcome (startNamed matcher name source)))
  | .names next => do
    perform matcher (next (← grammar).rules.names)

/--
Call the action of a rule for a node.
-/
def act (matcher : Matcher) (rule : Rule) (node : Node) : Run Value := do
  note (.acted rule.name rule.action.isSome)
  perform matcher (rule.act node)

end Run

namespace Matcher

/--
What an option has matched so far.
-/
structure Attempt where
  /-- The stream with the cursor behind what was matched. -/
  stream : TokenStream
  tokens : List String := []
  node : Node

/--
The attempt with one more token matched. The node takes the token before the cursor moves over it and
the empty tokens before it.
-/
def Attempt.consume (attempt : Attempt) (token : Option String) : Except Fault Attempt := do
  let node ← attempt.node.addToken token
  let (_, stream) ← attempt.stream.next
  return ⟨stream, attempt.tokens ++ token.toList, node⟩

/--
The attempt with one more rule matched. The cursor moves by the number of tokens that the rule
consumed, but at least by one.
-/
def Attempt.embed (attempt : Attempt) (found : Match) : Except Fault Attempt := do
  let node ← attempt.node.add found.result
  return ⟨attempt.stream.move (max found.tokens.length 1), attempt.tokens ++ found.tokens, node⟩

/--
Match one element at the cursor. The element is read only now, and a rule is looked up only now.
-/
def matchElement (tracing : Bool) (matcher : Matcher) (rule : Rule) (attempt : Attempt)
    (element : String) : Run (Option Attempt) := do
  let token ← Run.ofExcept (attempt.stream.peek 0)
  -- the line comes before the reading, so a malformed element is traced as well
  Run.trace tracing (.tried rule.name element token)
  match ← Run.ofExcept (Element.read element) with
  | .reference name =>
    let target ← Run.ofExcept ((← Run.grammar).rules.lookup (.text name))
    match ← matcher target attempt.stream with
    | some found => return some (← Run.ofExcept (attempt.embed found))
    | none => return none
  | element =>
    if element.accepts token then return some (← Run.ofExcept (attempt.consume token))
    else return none

/--
Match elements one after another.
-/
def matchElements (tracing : Bool) (matcher : Matcher) (rule : Rule) (attempt : Attempt) :
    List String → Run (Option Attempt)
  | [] => return some attempt
  | element :: elements => do
    match ← matchElement tracing matcher rule attempt element with
    | some attempt => matchElements tracing matcher rule attempt elements
    | none => return none

/--
Match the first option that fits. The empty option fits everything; what is left of the stream is not
looked at.
-/
def matchOptions (tracing : Bool) (matcher : Matcher) (rule : Rule) (stream : TokenStream) :
    List (List String) → Run (Option Match)
  | [] => do
    Run.trace tracing (.unmatched rule.name)
    return none
  | [] :: _ => do
    Run.trace tracing (.emptyOption rule.name)
    let node ← Run.newNode
    return some ⟨[], ← Run.act matcher rule node⟩
  | (element :: elements) :: options => do
    -- each option starts from the cursor of the caller and with a node of its own
    let node ← Run.newNode
    match ← matchElements tracing matcher rule ⟨stream, [], node⟩ (element :: elements) with
    | some attempt =>
      Run.trace tracing (.matched rule.name attempt.tokens)
      return some ⟨attempt.tokens, ← Run.act matcher rule attempt.node⟩
    | none => matchOptions tracing matcher rule stream options

/--
The matcher with at most `depth` rules under way at once.
-/
def ofDepth (tracing : Bool) : (depth : Nat) → Matcher
  | 0, _, _ => throw .exhausted
  | depth + 1, rule, stream =>
    matchOptions tracing (ofDepth tracing depth) rule stream rule.options

/--
The matcher of a run, whose depth is limited by the number of tokens.
-/
def ofSettings (settings : Settings) : Matcher :=
  fun rule stream => ofDepth settings.tracing (settings.nestingLimit stream.size) rule stream

end Matcher

namespace Grammar

/--
Match a source against the rule with the given name.
-/
def parseAs (settings : Settings) (name : Value) (source : Source) : Run (Option Match) :=
  Run.startNamed (Matcher.ofSettings settings) name source

/--
Match a source against the rule that was declared first.
-/
def parse (settings : Settings) (source : Source) : Run (Option Match) := do
  match (← Run.grammar).rules.toList with
  | [] => throw .emptyRules
  | rule :: _ => Run.start (Matcher.ofSettings settings) rule source

end Grammar
end TokenGrammar
