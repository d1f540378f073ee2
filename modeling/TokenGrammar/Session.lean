import TokenGrammar.RuleSet

/-!
This module contains grammars as they change over time, the journal of what happens while they are
used, and the monad of everything that is done with a grammar.
-/

namespace TokenGrammar

/--
A rule set with what the matcher needs besides: where nodes come from, the action of rules declared
without one, and how texts are split.
-/
structure Grammar where
  factory : NodeFactory := .list
  defaultAction : Callable Action := .absent
  splitter : Callable Splitter := .absent
  rules : RuleSet := {}
  /-- The number of runs that are under way. The rule set may only change while there is none. -/
  running : Nat := 0

/--
A line of the trace of a run.
-/
inductive TraceLine where
  /-- An element is compared with a token. -/
  | tried (rule element : String) (token : Option String)
  /-- The empty option is reached. -/
  | emptyOption (rule : String)
  /-- An option has matched. -/
  | matched (rule : String) (tokens : List String)
  /-- No option has matched. -/
  | unmatched (rule : String)
  deriving DecidableEq, Repr

/--
The wording of a line of a trace.
-/
def TraceLine.message : TraceLine → String
  | .tried rule element token =>
    let shown := match token with
      | some text => Text.quoted text
      | none => "None"
    s!"rule: {rule}; element: {element}; token: " ++ shown
  | .emptyOption rule => s!"rule: {rule}; empty option"
  | .matched rule tokens => s!"matches for rule {rule}: " ++ (Value.texts tokens).written
  | .unmatched rule => s!"rule: {rule}; no option matched"

/--
What the journal notes.
-/
inductive Event where
  | warned (warning : Warning)
  /-- The node factory is asked for a new node, so many times by now. -/
  | asked (times : Nat)
  /-- The action of a rule is called; `given` tells an action that was given from the lack of one. -/
  | acted (rule : String) (given : Bool)
  | traced (line : TraceLine)
  deriving DecidableEq, Repr

namespace Event

/--
How often the node factory has been asked for a new node, if the event tells.
-/
def asked? : Event → Option Nat
  | .asked times => some times
  | .warned _ | .acted _ _ | .traced _ => none

/--
How often the node factory has been asked for a new node, which the last event about it tells.
-/
def asks (journal : Array Event) : Nat := (journal.findSomeRev? asked?).getD 0

@[simp]
theorem asks_push_asked (journal : Array Event) (times : Nat)
    : asks (journal.push (.asked times)) = times := by
  unfold asks
  rw [Array.findSomeRev?_push]
  rfl

theorem asks_push {event : Event} (h : event.asked? = none) (journal : Array Event)
    : asks (journal.push event) = asks journal := by
  unfold asks
  rw [Array.findSomeRev?_push, h, Option.none_or]

end Event

/--
A grammar in use: its present state and the journal so far.
-/
structure Session where
  grammar : Grammar
  journal : Array Event := #[]

/--
Something done with a grammar. It may fail, and what was noted before stays noted.
-/
abbrev Run := ExceptT Fault (StateM Session)

namespace Run

/--
The grammar as it is now.
-/
def grammar : Run Grammar := do
  return (← get).grammar

/--
Add an event to the journal.
-/
def note (event : Event) : Run Unit :=
  modify fun session => { session with journal := session.journal.push event }

/--
Hand on an answer, or fail.
-/
def ofExcept : Except Fault α → Run α
  | .ok a => pure a
  | .error fault => throw fault

/--
The answer of something that may fail, failure included.
-/
def outcome (run : Run α) : Run (Except Fault α) :=
  fun session => match run session with
    | (answer, session') => (.ok answer, session')

/--
Count a run as under way while it lasts, however it ends.
-/
def sealing (run : Run α) : Run α :=
  fun session =>
    let counted := { session with
      grammar := { session.grammar with running := session.grammar.running + 1 } }
    match run counted with
    | (answer, session') => (answer, { session' with
        grammar := { session'.grammar with running := session'.grammar.running - 1 } })

end Run

/--
What a caller hands over as the rules of a new grammar.
-/
inductive RulesGiven where
  | absent
  /-- Names with options, no name twice. -/
  | mapping (entries : List (Value × Value))
  /-- Something that is no mapping. -/
  | other (typeName : String)

/--
The mapping that a list of assignments builds. A name that is assigned again keeps its place and takes
the new options.
-/
def RulesGiven.ofAssignments (assignments : List (Value × Value)) : RulesGiven :=
  .mapping (assignments.foldl assign [])
where
  assign (entries : List (Value × Value)) (entry : Value × Value) : List (Value × Value) :=
    if entries.any (·.1.same entry.1) then
      entries.map fun other => if other.1.same entry.1 then (other.1, entry.2) else other
    else entries ++ [entry]

namespace Grammar

/--
What a declaration under the given name is refused with while a run is under way. The refusal shows the
name.
-/
def refusal (name : Value) : Fault := .showing name (.sealed name)

/--
Build a rule and put it into the rule set, with a notice if some of its options are out of reach. A
rule that cannot be built changes nothing.
-/
def enter (name options : Value) (action : Callable Action) : Run Unit := do
  let (warning, rule) := Rule.make name options action
  if let some warning := warning then
    Run.note (.warned warning)
  let rule ← Run.ofExcept rule
  modify fun session => { session with
    grammar := { session.grammar with rules := session.grammar.rules.insert rule } }

/--
Declare a rule, with the default action if none is given. This is refused while a run is under way,
whatever is to be declared.
-/
def declare (name options : Value) (action : Callable Action) : Run Unit := do
  let grammar ← Run.grammar
  -- the seal comes first, so even a rule that could not be built is refused for it
  if grammar.running != 0 then
    throw (refusal name)
  let action := match action with
    | .absent => grammar.defaultAction
    | action => action
  enter name options action

/--
Declare the rules of a mapping one after another.
-/
def enterAll : List (Value × Value) → Run Unit
  | [] => pure ()
  | (name, options) :: entries => do
    enter name options (← Run.grammar).defaultAction
    enterAll entries

/--
A new grammar, with the events of its making. The rules have to be a mapping where they are given, the
node factory and the default action have to be callable. A splitter is not looked at before a text
has to be split.
-/
def create (rules : RulesGiven) (factory : Callable NodeFactory) (defaultAction : Callable Action)
    (splitter : Callable Splitter) : Except Fault Grammar × Array Event :=
  let build : Run Grammar := do
    let entries ← match rules with
      | .absent => pure []
      | .mapping entries => pure entries
      | .other typeName => throw (.badRules typeName)
    let factory ← match factory with
      | .absent => pure .list
      | .function factory => pure factory
      | .unfit _ => throw .badFactory
    if let .unfit _ := defaultAction then
      throw .badDefaultAction
    modify fun session => { session with grammar :=
      { factory := factory, defaultAction := defaultAction, splitter := splitter } }
    enterAll entries
    Run.grammar
  match build { grammar := {} } with
  | (answer, session) => (answer, session.journal)

end Grammar
end TokenGrammar
