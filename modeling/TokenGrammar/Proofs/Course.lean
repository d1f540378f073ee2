import TokenGrammar.Proofs.Entry

/-!
This module contains the course of a run: the calls of the matcher, of the node factory, of nodes and of
actions that the run is made of, the lines of the trace that fall due, and the runs that actions start.
The course does not depend on whether there is a trace. It tells the answer of the run and all that the
run adds to the journal.
-/

namespace TokenGrammar

/--
Something that happens in the course of a run.
-/
inductive Step where
  /-- A line of the trace falls due. -/
  | due (line : TraceLine)
  /-- The node factory is asked for a new node, so many times by now. -/
  | asked (times : Nat) (answer : Except Fault Node)
  /-- An item is offered to a node. -/
  | offered (node : Node) (item : Value)
  /-- The matcher is called for a rule. -/
  | call (rule : String) (steps : List Step)
  /-- The action of a rule is called for a node; `given` tells whether one was given, and `levels` how
  deep the runs may nest that it starts. -/
  | action (rule : String) (given : Bool) (node : Node) (levels : Nat) (answer : Except Fault Value)
      (steps : List Step)
  /-- A run is started; `returned` tells whether it comes to an answer or fails. -/
  | run (returned : Bool) (steps : List Step)

namespace Step

mutual

/--
What the journal notes of a step. Lines are left out if there is no trace.
-/
def events (tracing : Bool) : Step → List Event
  | .due line => if tracing then [.traced line] else []
  | .asked times _ => [.asked times]
  | .offered _ _ => []
  | .call _ steps | .run _ steps => eventsOf tracing steps
  | .action rule given _ _ _ steps => .acted rule given :: eventsOf tracing steps

/--
What the journal notes of steps one after another.
-/
def eventsOf (tracing : Bool) : List Step → List Event
  | [] => []
  | step :: steps => step.events tracing ++ eventsOf tracing steps

end

theorem eventsOf_append (tracing : Bool) (steps more : List Step)
    : eventsOf tracing (steps ++ more) = eventsOf tracing steps ++ eventsOf tracing more := by
  induction steps with
  | nil => rfl
  | cons step steps ih => simp [eventsOf, ih]

theorem eventsOf_singleton (tracing : Bool) (step : Step)
    : eventsOf tracing [step] = step.events tracing := by
  simp [eventsOf]

end Step

/--
How something done with a grammar ends, the steps up to then, and how often the node factory has been
asked by then.
-/
structure Ending (α : Type) where
  answer : Except Fault α
  steps : List Step
  asks : Nat

/--
The journal when the steps have been noted.
-/
def Ending.journal {α : Type} (ending : Ending α) (tracing : Bool) (journal : Array Event) :
    Array Event :=
  journal ++ (Step.eventsOf tracing ending.steps).toArray

/--
How something done with a grammar goes, by how often the node factory was asked before.
-/
structure Course (α : Type) where
  ending : (before : Nat) → Ending α

namespace Course

variable {α β : Type}

instance : Monad Course where
  pure a := ⟨fun before => ⟨.ok a, [], before⟩⟩
  bind course f := ⟨fun before => match course.ending before with
    | ⟨.ok a, steps, asks⟩ =>
      let rest := (f a).ending asks
      ⟨rest.answer, steps ++ rest.steps, rest.asks⟩
    | ⟨.error fault, steps, asks⟩ => ⟨.error fault, steps, asks⟩⟩

/--
Hand on an answer, or fail.
-/
def ofExcept (answer : Except Fault α) : Course α := ⟨fun before => ⟨answer, [], before⟩⟩

/--
A line of the trace falls due.
-/
def due (line : TraceLine) : Course Unit := ⟨fun before => ⟨.ok (), [.due line], before⟩⟩

/--
A new node is asked for.
-/
def newNode (factory : NodeFactory) : Course Node :=
  ⟨fun before =>
    ⟨factory.newNode before, [.asked (before + 1) (factory.newNode before)], before + 1⟩⟩

/--
An item is offered to a node.
-/
def offer (node : Node) (item : Value) : Course Node :=
  ⟨fun before => ⟨node.add item, [.offered node item], before⟩⟩

/--
The steps of a course as part of a single one.
-/
def within (step : Except Fault α → List Step → Step) (course : Course α) : Course α :=
  ⟨fun before =>
    let ending := course.ending before
    ⟨ending.answer, [step ending.answer ending.steps], ending.asks⟩⟩

/--
The course as that of a run, which reports an error in a way of its own.
-/
def asRun (course : Course α) (reported : Fault → Fault) : Course α :=
  ⟨fun before =>
    let ending := course.ending before
    ⟨ending.answer.mapError reported, [.run ending.answer.isOk ending.steps], ending.asks⟩⟩

/--
The answer of something that may fail, failure included.
-/
def outcome (course : Course α) : Course (Except Fault α) :=
  ⟨fun before =>
    let ending := course.ending before
    ⟨.ok ending.answer, ending.steps, ending.asks⟩⟩

theorem bind_of_ok {course : Course α} {before : Nat} {a : α}
    (h : (course.ending before).answer = .ok a) (f : α → Course β)
    : (course >>= f).ending before
        =
      ⟨((f a).ending (course.ending before).asks).answer,
        (course.ending before).steps ++ ((f a).ending (course.ending before).asks).steps,
        ((f a).ending (course.ending before).asks).asks⟩ := by
  simp only [bind]
  rcases hending : course.ending before with ⟨_, steps, asks⟩
  rw [hending] at h
  cases h
  rfl

theorem bind_of_error {course : Course α} {before : Nat} {fault : Fault}
    (h : (course.ending before).answer = .error fault) (f : α → Course β)
    : (course >>= f).ending before
        =
      ⟨.error fault, (course.ending before).steps, (course.ending before).asks⟩ := by
  simp only [bind]
  rcases hending : course.ending before with ⟨_, steps, asks⟩
  rw [hending] at h
  cases h
  rfl

end Course

/--
The courses of matching rules against streams.
-/
abbrev CourseMatcher := Rule → TokenStream → Course (Option Match)

namespace Course

/--
The course of matching a rule against a source.
-/
def start (g : Grammar) (matcher : CourseMatcher) (rule : Rule) (source : Source) :
    Course (Option Match) := do
  let stream ← ofExcept (TokenStream.openSource g.splitter source)
  (matcher rule stream).asRun (Run.reported rule stream.position)

/--
The course of matching a source against the rule with the given name.
-/
def startNamed (g : Grammar) (matcher : CourseMatcher) (name : Value) (source : Source) :
    Course (Option Match) := do
  let rule ← ofExcept (g.rules.lookup name)
  start g matcher rule source

/--
The course of a script that is carried out in a run, so all of its declarations are refused.
-/
def perform (g : Grammar) (matcher : CourseMatcher) : Script → Course Value
  | .done result => pure result
  | .fail fault => ofExcept (.error fault)
  | .declare name _ _ next => perform g matcher (next (.error (Grammar.refusal name)))
  | .parseAs name source next => do
    perform g matcher (next (← outcome (startNamed g matcher name source)))
  | .names next => perform g matcher (next g.rules.names)

/--
The course of the action of a rule for a node. The runs that it starts may nest so many levels deep.
-/
def act (g : Grammar) (levels : Nat) (matcher : CourseMatcher) (rule : Rule) (node : Node) :
    Course Value :=
  within (.action rule.name rule.action.isSome node levels) (perform g matcher (rule.act node))

/--
A token is offered to a node, if there is one.
-/
def offerToken (node : Node) : Option String → Course Node
  | some token => offer node (.text token)
  | none => pure node

/--
The course of matching one more token.
-/
def consume (attempt : Matcher.Attempt) (token : Option String) : Course Matcher.Attempt := do
  let node ← offerToken attempt.node token
  let taken ← ofExcept attempt.stream.next
  return ⟨taken.2, attempt.tokens ++ token.toList, node⟩

/--
The course of taking in what a rule has matched.
-/
def embed (attempt : Matcher.Attempt) (found : Match) : Course Matcher.Attempt := do
  let node ← offer attempt.node found.result
  return ⟨attempt.stream.move (max found.tokens.length 1), attempt.tokens ++ found.tokens, node⟩

/--
The course of matching one element at the cursor.
-/
def matchElement (g : Grammar) (matcher : CourseMatcher) (rule : Rule) (attempt : Matcher.Attempt)
    (element : String) : Course (Option Matcher.Attempt) := do
  let token ← ofExcept (attempt.stream.peek 0)
  due (.tried rule.name element token)
  match ← ofExcept (Element.read element) with
  | .reference name =>
    let target ← ofExcept (g.rules.lookup (.text name))
    match ← matcher target attempt.stream with
    | some found => return some (← embed attempt found)
    | none => return none
  | element =>
    if element.accepts token then return some (← consume attempt token)
    else return none

/--
The course of matching elements one after another.
-/
def matchElements (g : Grammar) (matcher : CourseMatcher) (rule : Rule) (attempt : Matcher.Attempt) :
    List String → Course (Option Matcher.Attempt)
  | [] => return some attempt
  | element :: elements => do
    match ← matchElement g matcher rule attempt element with
    | some attempt => matchElements g matcher rule attempt elements
    | none => return none

/--
The course of matching the first option that fits. The runs that actions start may nest so many levels
deep.
-/
def matchOptions (g : Grammar) (levels : Nat) (matcher : CourseMatcher) (rule : Rule)
    (stream : TokenStream) : List (List String) → Course (Option Match)
  | [] => do
    due (.unmatched rule.name)
    return none
  | [] :: _ => do
    due (.emptyOption rule.name)
    let node ← newNode g.factory
    let result ← act g levels matcher rule node
    return some ⟨[], result⟩
  | (element :: elements) :: options => do
    let node ← newNode g.factory
    match ← matchElements g matcher rule ⟨stream, [], node⟩ (element :: elements) with
    | some attempt =>
      due (.matched rule.name attempt.tokens)
      let result ← act g levels matcher rule attempt.node
      return some ⟨attempt.tokens, result⟩
    | none => matchOptions g levels matcher rule stream options

/--
The course of the matcher with at most `depth` rules under way at once.
-/
def ofDepth (g : Grammar) : (depth : Nat) → CourseMatcher
  | 0, rule, _ => within (fun _ => .call rule.name) (ofExcept (.error .exhausted))
  | depth + 1, rule, stream =>
    within (fun _ => .call rule.name)
      (matchOptions g depth (ofDepth g depth) rule stream rule.options)

end Course

namespace Run

variable {α β : Type} {g : Grammar} {tracing : Bool}

/--
Started with the grammar the run leaves it as it is, ends as the course does, and adds to the journal what
is noted of the steps.
-/
def Takes (g : Grammar) (tracing : Bool) (run : Run α) (course : Course α) : Prop :=
  ∀ journal,
    run ⟨g, journal⟩
        = ((course.ending (Event.asks journal)).answer,
          ⟨g, (course.ending (Event.asks journal)).journal tracing journal⟩)
      ∧ Event.asks ((course.ending (Event.asks journal)).journal tracing journal)
        = (course.ending (Event.asks journal)).asks

namespace Takes

theorem ofExcept (answer : Except Fault α)
    : Takes g tracing (ofExcept answer) (Course.ofExcept answer) := by
  intro journal
  cases answer with
  | error fault => exact ⟨rfl, rfl⟩
  | ok a => exact ⟨rfl, rfl⟩

theorem pure (a : α) : Takes g tracing (pure a) (pure a) := ofExcept (.ok a)

theorem throw (fault : Fault)
    : Takes g tracing (throw fault) (Course.ofExcept (.error fault) : Course α) :=
  ofExcept (.error fault)

theorem bind {run : Run α} {course : Course α} {f : α → Run β} {f' : α → Course β}
    (h : Takes g tracing run course) (hok : ∀ a, Takes g tracing (f a) (f' a))
    : Takes g tracing (run >>= f) (course >>= f') := by
  intro journal
  rcases h journal with ⟨hrun, hasks⟩
  rw [bind_apply, hrun]
  cases hanswer : (course.ending (Event.asks journal)).answer with
  | error fault =>
    rw [Course.bind_of_error hanswer]
    exact ⟨rfl, hasks⟩
  | ok a =>
    have hrest := hok a ((course.ending (Event.asks journal)).journal tracing journal)
    rw [hasks] at hrest
    rw [Course.bind_of_ok hanswer]
    unfold Ending.journal at *
    rw [Step.eventsOf_append, ← List.append_toArray, ← Array.append_assoc]
    exact hrest

theorem grammar_bind {f : Grammar → Run α} {course : Course α} (h : Takes g tracing (f g) course)
    : Takes g tracing (Run.grammar >>= f) course := h

theorem note {event : Event} {step : Step} (hstep : step.events tracing = [event]) {asks : Nat → Nat}
    (hasks : ∀ journal, Event.asks (journal.push event) = asks (Event.asks journal))
    : Takes g tracing (note event) ⟨fun before => ⟨.ok (), [step], asks before⟩⟩ := by
  intro journal
  unfold Ending.journal
  dsimp only
  rw [Step.eventsOf_singleton, hstep, ← Array.push_eq_append]
  exact ⟨rfl, hasks journal⟩

theorem due (line : TraceLine) : Takes g tracing (trace tracing line) (Course.due line) := by
  cases tracing with
  | false => exact fun journal => ⟨rfl, rfl⟩
  | true => exact note rfl (Event.asks_push rfl)

theorem newNode : Takes g tracing newNode (Course.newNode g.factory) := by
  intro journal
  have hevents : Step.eventsOf tracing [.asked (Event.asks journal + 1)
      (g.factory.newNode (Event.asks journal))] = [.asked (Event.asks journal + 1)] := rfl
  unfold Course.newNode Ending.journal
  dsimp only
  rw [newNode_apply, hevents, ← Array.push_eq_append, Event.asks_push_asked]
  exact ⟨rfl, rfl⟩

theorem offer (node : Node) (item : Value)
    : Takes g tracing (Run.ofExcept (node.add item)) (Course.offer node item) := by
  intro journal
  cases hadd : node.add item with
  | error fault => exact ⟨by unfold Course.offer; rw [hadd]; rfl, rfl⟩
  | ok node' => exact ⟨by unfold Course.offer; rw [hadd]; rfl, rfl⟩

theorem consume (attempt : Matcher.Attempt) (token : Option String)
    : Takes g tracing (Run.ofExcept (attempt.consume token)) (Course.consume attempt token) := by
  have hoffer : Takes g tracing (Run.ofExcept (attempt.node.addToken token))
      (Course.offerToken attempt.node token) := by
    cases token with
    | none => exact pure attempt.node
    | some token => exact offer attempt.node (.text token)
  rw [Matcher.Attempt.consume, ofExcept_bind]
  apply bind hoffer
  intro node
  rw [ofExcept_bind]
  exact bind (ofExcept _) fun taken => pure _

theorem embed (attempt : Matcher.Attempt) (found : Match)
    : Takes g tracing (Run.ofExcept (attempt.embed found)) (Course.embed attempt found) := by
  rw [Matcher.Attempt.embed, ofExcept_bind]
  exact bind (offer attempt.node found.result) fun node => pure _

theorem outcome {run : Run α} {course : Course α} (h : Takes g tracing run course)
    : Takes g tracing run.outcome course.outcome := by
  intro journal
  rcases h journal with ⟨hrun, hasks⟩
  rw [outcome_apply, hrun]
  exact ⟨rfl, hasks⟩

theorem sealing {run : Run α} {course : Course α} (h : Takes g.sealed tracing run course)
    : Takes g tracing run.sealing course := by
  intro journal
  rcases h journal with ⟨hrun, hasks⟩
  rw [sealing_apply, hrun]
  exact ⟨rfl, hasks⟩

theorem within {run : Run α} {course : Course α} (h : Takes g tracing run course)
    {step : Except Fault α → List Step → Step}
    (hstep : ∀ answer steps, (step answer steps).events tracing = Step.eventsOf tracing steps)
    : Takes g tracing run (course.within step) := by
  intro journal
  have hrun := h journal
  unfold Course.within
  unfold Ending.journal at *
  dsimp only
  rw [Step.eventsOf_singleton, hstep]
  exact hrun

theorem asRun {run : Run α} {course : Course α} (h : Takes g tracing run course)
    {f : Except Fault α → Run α} {reported : Fault → Fault} (hok : ∀ a, f (.ok a) = Pure.pure a)
    (herror : ∀ fault, f (.error fault) = MonadExcept.throw (reported fault))
    : Takes g tracing (run.outcome >>= f) (course.asRun reported) := by
  intro journal
  rcases h journal with ⟨hrun, hasks⟩
  rw [bind_apply, outcome_apply, hrun]
  unfold Course.asRun
  unfold Ending.journal at *
  dsimp only
  rw [Step.eventsOf_singleton, Step.events]
  refine ⟨?_, hasks⟩
  cases (course.ending (Event.asks journal)).answer with
  | error fault =>
    rw [herror]
    rfl
  | ok a =>
    rw [hok]
    rfl

theorem start {matcher : Matcher} {course : CourseMatcher} {rule : Rule}
    (h : ∀ stream, Takes g.sealed tracing (matcher rule stream) (course rule stream)) (source : Source)
    : Takes g tracing (start matcher rule source) (Course.start g course rule source) := by
  rw [start_eq]
  apply grammar_bind
  apply bind (ofExcept _)
  intro stream
  apply sealing
  exact (h stream).asRun (fun _ => rfl) fun _ => rfl

end Takes
end Run

/--
The grammar with so many runs under way.
-/
def Grammar.withRunning (g : Grammar) (running : Nat) : Grammar := { g with running := running }

namespace Course

variable {g : Grammar} {running : Nat} {tracing : Bool} {matcher : Matcher} {course : CourseMatcher}

/--
The runs of the matcher take the given courses.
-/
def Guides (g : Grammar) (tracing : Bool) (matcher : Matcher) (course : CourseMatcher) : Prop :=
  ∀ rule stream, Run.Takes g tracing (matcher rule stream) (course rule stream)

theorem startNamed_takes (h : Guides (g.withRunning running).sealed tracing matcher course)
    (name : Value) (source : Source)
    : Run.Takes (g.withRunning running) tracing (Run.startNamed matcher name source)
        (startNamed g course name source) := by
  apply Run.Takes.grammar_bind
  apply Run.Takes.bind (Run.Takes.ofExcept _)
  intro rule
  exact Run.Takes.start (h rule) source

theorem perform_takes (hrunning : running ≠ 0)
    (h : Guides (g.withRunning running).sealed tracing matcher course) (script : Script)
    : Run.Takes (g.withRunning running) tracing (Run.perform matcher script)
        (perform g course script) := by
  induction script using Script.induct with
  | done result => exact Run.Takes.pure result
  | fail fault => exact Run.Takes.throw fault
  | declare name options action next ih =>
    intro journal
    rw [Run.perform_declare hrunning]
    exact ih (.error (Grammar.refusal name)) journal
  | parseAs name source next ih =>
    apply Run.Takes.bind (startNamed_takes h name source).outcome
    intro answer
    exact ih answer
  | names next ih => exact Run.Takes.grammar_bind (ih g.rules.names)

theorem act_takes (hrunning : running ≠ 0)
    (h : Guides (g.withRunning running).sealed tracing matcher course) (levels : Nat) (rule : Rule)
    (node : Node)
    : Run.Takes (g.withRunning running) tracing (Run.act matcher rule node)
        (act g levels course rule node) := by
  intro journal
  have hperform := perform_takes hrunning h (rule.act node)
    (journal.push (.acted rule.name rule.action.isSome))
  have hact : Run.act matcher rule node ⟨g.withRunning running, journal⟩
      = Run.perform matcher (rule.act node)
        ⟨g.withRunning running, journal.push (.acted rule.name rule.action.isSome)⟩ := rfl
  have hacted : (Event.acted rule.name rule.action.isSome).asked? = none := rfl
  rw [hact]
  unfold act within
  unfold Ending.journal at *
  dsimp only
  rw [Event.asks_push hacted] at hperform
  rw [Step.eventsOf_singleton, Step.events, List.toArray_cons, ← Array.append_assoc,
    ← Array.push_eq_append]
  exact hperform

theorem matchElement_takes (h : Guides (g.withRunning running) tracing matcher course) (rule : Rule)
    (attempt : Matcher.Attempt) (element : String)
    : Run.Takes (g.withRunning running) tracing
        (Matcher.matchElement tracing matcher rule attempt element)
        (matchElement g course rule attempt element) := by
  have hterminal (token : Option String) (terminal : Element)
      : Run.Takes (g.withRunning running) tracing
          (if terminal.accepts token then do
            return some (← Run.ofExcept (attempt.consume token))
          else return none)
          (if terminal.accepts token then do return some (← consume attempt token)
          else return none) := by
    split
    . apply Run.Takes.bind (Run.Takes.consume attempt token)
      intro next
      exact Run.Takes.pure (some next)
    . exact Run.Takes.pure none
  unfold Matcher.matchElement matchElement
  apply Run.Takes.bind (Run.Takes.ofExcept _)
  intro token
  apply Run.Takes.bind (Run.Takes.due _)
  intro _
  apply Run.Takes.bind (Run.Takes.ofExcept _)
  intro read
  cases read with
  | literal text => exact hterminal token (.literal text)
  | pattern regex => exact hterminal token (.pattern regex)
  | reference name =>
    apply Run.Takes.grammar_bind
    apply Run.Takes.bind (Run.Takes.ofExcept _)
    intro target
    apply Run.Takes.bind (h target attempt.stream)
    intro found
    cases found with
    | none => exact Run.Takes.pure none
    | some found =>
      apply Run.Takes.bind (Run.Takes.embed attempt found)
      intro next
      exact Run.Takes.pure (some next)

theorem matchElements_takes (h : Guides (g.withRunning running) tracing matcher course) (rule : Rule)
    (attempt : Matcher.Attempt) (elements : List String)
    : Run.Takes (g.withRunning running) tracing
        (Matcher.matchElements tracing matcher rule attempt elements)
        (matchElements g course rule attempt elements) := by
  induction elements generalizing attempt with
  | nil => exact Run.Takes.pure (some attempt)
  | cons element elements ih =>
    apply Run.Takes.bind (matchElement_takes h rule attempt element)
    intro next
    cases next with
    | none => exact Run.Takes.pure none
    | some next => exact ih next

theorem matchOptions_takes (h : Guides (g.withRunning running) tracing matcher course) {rule : Rule}
    {levels : Nat}
    (hact : ∀ node, Run.Takes (g.withRunning running) tracing (Run.act matcher rule node)
      (act g levels course rule node))
    (stream : TokenStream) (options : List (List String))
    : Run.Takes (g.withRunning running) tracing
        (Matcher.matchOptions tracing matcher rule stream options)
        (matchOptions g levels course rule stream options) := by
  have hnode : Run.Takes (g.withRunning running) tracing Run.newNode (newNode g.factory) :=
    Run.Takes.newNode
  induction options with
  | nil =>
    apply Run.Takes.bind (Run.Takes.due _)
    intro _
    exact Run.Takes.pure none
  | cons option options ih =>
    cases option with
    | nil =>
      apply Run.Takes.bind (Run.Takes.due _)
      intro _
      apply Run.Takes.bind hnode
      intro node
      apply Run.Takes.bind (hact node)
      intro result
      exact Run.Takes.pure _
    | cons element elements =>
      apply Run.Takes.bind hnode
      intro node
      apply Run.Takes.bind (matchElements_takes h rule ⟨stream, [], node⟩ (element :: elements))
      intro last
      cases last with
      | none => exact ih
      | some attempt =>
        apply Run.Takes.bind (Run.Takes.due _)
        intro _
        apply Run.Takes.bind (hact attempt.node)
        intro result
        exact Run.Takes.pure _

-- an action may start runs of its own, with one more run under way, so the induction is for any number
theorem ofDepth_guides (g : Grammar) (tracing : Bool) (depth : Nat) (hrunning : running ≠ 0)
    : Guides (g.withRunning running) tracing (Matcher.ofDepth tracing depth) (ofDepth g depth) := by
  induction depth generalizing running with
  | zero =>
    intro rule stream
    apply Run.Takes.within (Run.Takes.throw .exhausted)
    intro _ steps
    rw [Step.events]
  | succ depth ih =>
    intro rule stream
    have hact (node : Node) := act_takes hrunning (ih (Nat.succ_ne_zero running)) depth rule node
    apply Run.Takes.within (matchOptions_takes (ih hrunning) hact stream rule.options)
    intro _ steps
    rw [Step.events]

end Course

/--
The course of a run from where it begins, with its limit for the nesting of rules.
-/
def Grammar.Entry.course (entry : Entry) (g : Grammar) (nestingLimit : Nat → Nat) (source : Source) :
    Course (Option Match) := do
  let rule ← Course.ofExcept (entry.rule? g.rules)
  Course.start g (fun rule stream => Course.ofDepth g (nestingLimit stream.size) rule stream) rule source

/--
A run takes its course, be there a trace or not.
-/
theorem Grammar.Entry.run_takes (g : Grammar) (entry : Entry) (settings : Settings) (source : Source)
    : Run.Takes g settings.tracing (entry.run settings source)
        (entry.course g settings.nestingLimit source) := by
  rw [run_eq]
  apply Run.Takes.grammar_bind
  apply Run.Takes.bind (Run.Takes.ofExcept _)
  intro rule
  apply Run.Takes.start
  intro stream
  have hdepth := Course.ofDepth_guides g settings.tracing (settings.nestingLimit stream.size)
    g.sealed_running_ne_zero
  exact hdepth rule stream

end TokenGrammar
