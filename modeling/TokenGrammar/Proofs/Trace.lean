import TokenGrammar.Proofs.Course

/-!
This module contains what the trace of a run is worth. It changes nothing about the run. Its lines that
tell of a success name the rules whose actions are called, and in a run that comes to an answer every
call of the matcher closes with one line.
-/

namespace TokenGrammar

/--
The rule that has matched according to a line.
-/
def TraceLine.success? : TraceLine → Option String
  | .emptyOption rule | .matched rule _ => some rule
  | .tried _ _ _ | .unmatched _ => none

/--
The rule whose call of the matcher a line closes, with a match or without one.
-/
def TraceLine.closing? : TraceLine → Option String
  | .emptyOption rule | .matched rule _ | .unmatched rule => some rule
  | .tried _ _ _ => none

theorem TraceLine.closing?_of_success? {line : TraceLine} {rule : String}
    (h : line.success? = some rule)
    : line.closing? = some rule := by
  cases line with
  | tried _ _ _ => cases h
  | emptyOption _ => exact h
  | matched _ _ => exact h
  | unmatched _ => cases h

namespace Event

/--
The rule that has matched according to the trace.
-/
def success? : Event → Option String
  | .traced line => line.success?
  | _ => none

/--
The rule whose action is called.
-/
def triggered? : Event → Option String
  | .acted rule _ => some rule
  | _ => none

/--
The rules that have matched according to the trace.
-/
def successes (events : List Event) : List String := events.filterMap success?

/--
The rules whose actions are called.
-/
def triggered (events : List Event) : List String := events.filterMap triggered?

end Event

/--
What a journal notes besides the lines of the trace.
-/
def untraced (journal : Array Event) : List Event :=
  journal.toList.filter fun
    | .traced _ => false
    | _ => true

namespace Step

mutual

theorem untraced_events (step : Step) : untraced (step.events true).toArray = step.events false := by
  cases step with
  | due line => rfl
  | asked times answer => rfl
  | offered node item => rfl
  | call rule steps => exact untraced_eventsOf steps
  | action rule given node levels answer steps =>
    have hsteps := untraced_eventsOf steps
    unfold untraced at *
    rw [events, events, ← hsteps]
    rfl
  | run returned steps => exact untraced_eventsOf steps

theorem untraced_eventsOf (steps : List Step)
    : untraced (eventsOf true steps).toArray = eventsOf false steps := by
  cases steps with
  | nil => rfl
  | cons step steps =>
    have hstep := untraced_events step
    have hsteps := untraced_eventsOf steps
    unfold untraced at *
    rw [eventsOf, eventsOf, List.filter_append, hstep, hsteps]

end

/--
The rule whose call of the matcher a step closes.
-/
def closing? : Step → Option String
  | .due line => line.closing?
  | _ => none

/--
What steps close, the steps inside of them left aside.
-/
def closings (steps : List Step) : List String := steps.filterMap closing?

/--
Within a run that returns or not, every call of the matcher closes with exactly one line of its own, which
names its rule. That is only asked of runs that return, be it this one or one that an action starts.
-/
inductive Closes : Bool → Step → Prop where
  | due {returned} (line) : Closes returned (.due line)
  | asked {returned} (times answer) : Closes returned (.asked times answer)
  | offered {returned} (node item) : Closes returned (.offered node item)
  | call {returned rule steps} (hclosings : returned = true → closings steps = [rule])
      (hsteps : ∀ step ∈ steps, Closes returned step) : Closes returned (.call rule steps)
  | action {returned steps} (rule given node levels answer)
      (hsteps : ∀ step ∈ steps, Closes returned step)
      : Closes returned (.action rule given node levels answer steps)
  | run {returned steps} (outer) (hsteps : ∀ step ∈ steps, Closes returned step)
      : Closes outer (.run returned steps)

theorem Closes.of_returned {step : Step} (h : step.Closes true) (returned : Bool)
    : step.Closes returned := by
  generalize hreturns : true = returns at h
  induction h with
  | due line => exact .due line
  | asked times answer => exact .asked times answer
  | offered node item => exact .offered node item
  | call hclosings _ ih =>
    subst hreturns
    exact .call (fun _ => hclosings rfl) fun step hstep => ih step hstep rfl
  | action rule given node levels answer _ ih =>
    exact .action rule given node levels answer fun step hstep => ih step hstep hreturns
  | run _ hsteps _ => exact .run returned hsteps

/--
The steps close, and what they note tells the truth if nodes can always be made: the rules that have matched
are those whose actions are called.
-/
structure Fair (g : Grammar) (returned : Bool) (steps : List Step) : Prop where
  closes : ∀ step ∈ steps, step.Closes returned
  truthful : (∀ before, ∃ node, g.factory.newNode before = .ok node) →
    Event.successes (eventsOf true steps) = Event.triggered (eventsOf true steps)

namespace Fair

variable {g : Grammar} {returned : Bool} {steps more : List Step}

theorem nil : Fair g returned [] where
  closes := by simp
  truthful := fun _ => rfl

theorem append (h : Fair g returned steps) (hmore : Fair g returned more)
    : Fair g returned (steps ++ more) where
  closes := by
    intro step hstep
    rcases List.mem_append.mp hstep with hstep | hstep
    . exact h.closes step hstep
    . exact hmore.closes step hstep
  truthful := by
    intro hnode
    have htruthful := h.truthful hnode
    have htruthful' := hmore.truthful hnode
    unfold Event.successes Event.triggered at *
    rw [eventsOf_append, List.filterMap_append, List.filterMap_append, htruthful, htruthful']

theorem of_returned (h : Fair g true steps) (returned : Bool) : Fair g returned steps where
  closes := fun step hstep => (h.closes step hstep).of_returned returned
  truthful := h.truthful

theorem singleton {step : Step} (h : step.Closes returned)
    (htruthful : (∀ before, ∃ node, g.factory.newNode before = .ok node) →
      Event.successes (step.events true) = Event.triggered (step.events true))
    : Fair g returned [step] where
  closes := by
    intro _ hstep
    cases List.mem_singleton.mp hstep
    exact h
  truthful := by
    rw [eventsOf_singleton]
    exact htruthful

theorem due {line : TraceLine} (h : line.success? = none) : Fair g returned [.due line] := by
  apply singleton (.due line)
  intro _
  simp [events, Event.successes, Event.triggered, Event.success?, Event.triggered?, h]

theorem call {rule : String} (h : Fair g returned steps)
    (hclosings : returned = true → closings steps = [rule])
    : Fair g returned [.call rule steps] := by
  apply singleton (.call hclosings h.closes)
  rw [events]
  exact h.truthful

theorem run (h : Fair g returned steps) (outer : Bool) : Fair g outer [.run returned steps] := by
  apply singleton (.run outer h.closes)
  rw [events]
  exact h.truthful

theorem asked (times : Nat) (answer : Except Fault Node) : Fair g returned [.asked times answer] := by
  apply singleton (.asked times answer)
  intro _
  rfl

theorem offered (node : Node) (item : Value) : Fair g returned [.offered node item] := by
  apply singleton (.offered node item)
  intro _
  rfl

-- the line and the call of the action are not fair by themselves, and the factory may be asked in between
theorem success {line : TraceLine} {rule : String} (hline : line.success? = some rule)
    {between : List Step} (hbetween : Fair g returned between)
    (hsilent : Event.triggered (eventsOf true between) = []) (h : Fair g returned steps) (given : Bool)
    (node : Node) (levels : Nat) (answer : Except Fault Value)
    : Fair g returned (.due line :: (between ++ [.action rule given node levels answer steps])) where
  closes := by
    intro step hstep
    rcases List.mem_cons.mp hstep with rfl | hstep
    . exact .due line
    . rcases List.mem_append.mp hstep with hstep | hstep
      . exact hbetween.closes step hstep
      . cases List.mem_singleton.mp hstep
        exact .action rule given node levels answer h.closes
  truthful := by
    intro hnode
    have hevents : eventsOf true (.due line :: (between ++ [.action rule given node levels answer steps]))
        = .traced line :: (eventsOf true between ++ .acted rule given :: eventsOf true steps) := by
      rw [eventsOf, eventsOf_append, eventsOf_singleton, events, events]
      rfl
    have hsuccesses : Event.successes (.traced line :: (eventsOf true between
        ++ .acted rule given :: eventsOf true steps)) = rule :: Event.successes (eventsOf true steps) := by
      have hquiet := hbetween.truthful hnode
      have htraced : Event.success? (.traced line) = some rule := hline
      have hacted : Event.success? (.acted rule given) = none := rfl
      rw [hsilent] at hquiet
      unfold Event.successes at *
      rw [List.filterMap_cons_some htraced, List.filterMap_append, hquiet, List.filterMap_cons_none hacted]
      rfl
    have htriggered : Event.triggered (.traced line :: (eventsOf true between
        ++ .acted rule given :: eventsOf true steps)) = rule :: Event.triggered (eventsOf true steps) := by
      have htraced : Event.triggered? (.traced line) = none := rfl
      have hacted : Event.triggered? (.acted rule given) = some rule := rfl
      unfold Event.triggered at *
      rw [List.filterMap_cons_none htraced, List.filterMap_append, hsilent,
        List.filterMap_cons_some hacted]
      rfl
    rw [hevents, hsuccesses, htriggered, h.truthful hnode]

end Fair
end Step

/--
The steps are fair, and if there is an answer they close these calls.
-/
structure Ending.Orderly {α : Type} (g : Grammar) (closings : List String) (ending : Ending α) : Prop where
  closings : ending.answer.isOk = true → Step.closings ending.steps = closings
  fair : Step.Fair g ending.answer.isOk ending.steps

/--
However the course goes, its steps are fair, and if it comes to an answer they close these calls.
-/
def Course.Orderly {α : Type} (g : Grammar) (closings : List String) (course : Course α) : Prop :=
  ∀ before, (course.ending before).Orderly g closings

namespace Course

variable {α β : Type} {g : Grammar} {before after : List String}

namespace Orderly

theorem ofExcept (answer : Except Fault α) : Orderly g [] (ofExcept answer) :=
  fun _ => ⟨fun _ => rfl, .nil⟩

theorem pure (a : α) : Orderly g [] (pure a) := ofExcept (.ok a)

theorem bind {course : Course α} {f : α → Course β} (h : Orderly g before course)
    (hok : ∀ a, Orderly g after (f a))
    : Orderly g (before ++ after) (course >>= f) := by
  intro asks
  rcases h asks with ⟨hclosings, hfair⟩
  cases hanswer : (course.ending asks).answer with
  | error fault =>
    rw [hanswer] at hfair
    rw [bind_of_error hanswer]
    exact ⟨nofun, hfair⟩
  | ok a =>
    rw [hanswer] at hclosings hfair
    rcases hok a (course.ending asks).asks with ⟨hclosings', hfair'⟩
    rw [bind_of_ok hanswer]
    constructor
    . intro hreturned
      unfold Step.closings at *
      rw [List.filterMap_append, hclosings rfl, hclosings' hreturned]
    . exact (hfair.of_returned _).append hfair'

-- what comes first mostly closes no call itself
theorem bind_inside {course : Course α} {f : α → Course β} (h : Orderly g [] course)
    (hok : ∀ a, Orderly g after (f a))
    : Orderly g after (course >>= f) :=
  h.bind hok

theorem due {line : TraceLine} (hsuccess : line.success? = none)
    (hclosing : line.closing?.toList = after)
    : Orderly g after (Course.due line) := by
  intro asks
  refine ⟨?_, .due hsuccess⟩
  intro _
  rw [← hclosing]
  unfold Course.due Step.closings
  cases hclosing : line.closing? with
  | none => exact List.filterMap_cons_none hclosing
  | some rule => exact List.filterMap_cons_some hclosing

theorem newNode : Orderly g [] (Course.newNode g.factory) :=
  fun _ => ⟨fun _ => rfl, .asked _ _⟩

theorem offer (node : Node) (item : Value) : Orderly g [] (Course.offer node item) :=
  fun _ => ⟨fun _ => rfl, .offered node item⟩

theorem offerToken (node : Node) (token : Option String) : Orderly g [] (Course.offerToken node token) := by
  cases token with
  | none => exact pure node
  | some token => exact offer node (.text token)

theorem consume (attempt : Matcher.Attempt) (token : Option String)
    : Orderly g [] (Course.consume attempt token) := by
  apply (offerToken attempt.node token).bind_inside
  intro node
  apply (ofExcept attempt.stream.next).bind_inside
  intro taken
  exact pure _

theorem embed (attempt : Matcher.Attempt) (found : Match)
    : Orderly g [] (Course.embed attempt found) := by
  apply (offer attempt.node found.result).bind_inside
  intro node
  exact pure _

theorem call {rule : String} {course : Course α} (h : Orderly g [rule] course)
    : Orderly g [] (course.within fun _ => .call rule) :=
  fun before => ⟨fun _ => rfl, (h before).fair.call (h before).closings⟩

end Orderly

variable {matcher : CourseMatcher} {rule : Rule} {levels : Nat}

section

variable (h : ∀ rule stream, Orderly g [] (matcher rule stream))

include h

theorem fair_startNamed (name : Value) (source : Source) (before : Nat)
    : Step.Fair g true ((startNamed g matcher name source).ending before).steps := by
  unfold startNamed
  cases hrule : g.rules.lookup name with
  | error fault => exact .nil
  | ok rule =>
    show Step.Fair g true ((start g matcher rule source).ending before).steps
    unfold start
    cases hsource : TokenStream.openSource g.splitter source with
    | error fault => exact .nil
    | ok stream => exact (h rule stream before).fair.run true

-- an action goes on after errors of the runs that it has started
theorem fair_perform (script : Script) (before : Nat)
    : Step.Fair g true ((perform g matcher script).ending before).steps := by
  induction script using Script.induct generalizing before with
  | done result => exact .nil
  | fail fault => exact .nil
  | declare name options action next ih => exact ih (.error (Grammar.refusal name)) before
  | parseAs name source next ih =>
    have hstart := fair_startNamed h name source before
    exact hstart.append (ih ((startNamed g matcher name source).ending before).answer _)
  | names next ih => exact ih g.rules.names before

/--
A line that tells of a success is followed by the call of the action, with a node that is there already or
that is asked for in between.
-/
theorem orderly_success {line : TraceLine} (hline : line.success? = some rule.name)
    {made : Course Node} (hmade : made = newNode g.factory ∨ ∃ node, made = pure node)
    (tokens : List String)
    : Orderly g [rule.name]
        (do
          due line
          let node ← made
          let result ← act g levels matcher rule node
          return some (Match.mk tokens result)) := by
  have hmade : Orderly g [] made ∧ (∀ before, Event.triggered (Step.eventsOf true
      (made.ending before).steps) = []) ∧ ∀ before fault, (made.ending before).answer = .error fault →
      g.factory.newNode before = .error fault := by
    rcases hmade with rfl | ⟨node, rfl⟩
    . exact ⟨Orderly.newNode, fun _ => rfl, fun _ _ hfault => hfault⟩
    . exact ⟨Orderly.pure node, fun _ => rfl, nofun⟩
  rcases hmade with ⟨hbetween, hsilent, hfails⟩
  intro before
  rcases hbetween before with ⟨hclosings, hfair⟩
  have hdue : ((due line).ending before).answer = .ok () := rfl
  have hasks : ((due line).ending before).asks = before := rfl
  rw [bind_of_ok hdue, hasks]
  cases hnode : (made.ending before).answer with
  | error fault =>
    rw [hnode] at hfair
    rw [bind_of_error hnode]
    refine ⟨nofun, ?_, ?_⟩
    . intro step hstep
      rcases List.mem_cons.mp hstep with rfl | hstep
      . exact .due line
      . exact hfair.closes step hstep
    . intro hnodes
      rcases hnodes before with ⟨node, hok⟩
      rw [hfails before fault hnode] at hok
      cases hok
  | ok node =>
    rw [hnode] at hclosings hfair
    rw [bind_of_ok hnode]
    have hperform := fair_perform h (rule.act node) (made.ending before).asks
    have hsteps (returned : Bool) (answer : Except Fault Value)
        := Step.Fair.success hline (hfair.of_returned returned) (hsilent before)
          (hperform.of_returned returned) rule.action.isSome node levels answer
    cases hanswer : ((act g levels matcher rule node).ending (made.ending before).asks).answer with
    | error fault =>
      rw [bind_of_error hanswer]
      exact ⟨nofun, hsteps false _⟩
    | ok result =>
      rw [bind_of_ok hanswer]
      refine ⟨?_, hsteps true _⟩
      intro _
      have hline : Step.closing? (.due line) = some rule.name := TraceLine.closing?_of_success? hline
      have hclosings := hclosings rfl
      unfold Step.closings at *
      show ((.due line :: ((made.ending before).steps ++ [_]) : List Step)).filterMap Step.closing? = _
      rw [List.filterMap_cons_some hline, List.filterMap_append, hclosings]
      rfl

theorem orderly_matchElement (rule : Rule) (attempt : Matcher.Attempt) (element : String)
    : Orderly g [] (matchElement g matcher rule attempt element) := by
  have hterminal (token : Option String) (terminal : Element)
      : Orderly g []
          (if terminal.accepts token then do return some (← consume attempt token)
          else return none) := by
    split
    . apply (Orderly.consume attempt token).bind_inside
      intro next
      exact Orderly.pure _
    . exact Orderly.pure _
  unfold matchElement
  apply (Orderly.ofExcept _).bind_inside
  intro token
  have htried : Orderly g [] (due (.tried rule.name element token)) := Orderly.due rfl rfl
  apply htried.bind_inside
  intro _
  apply (Orderly.ofExcept _).bind_inside
  intro read
  cases read with
  | literal text => exact hterminal token (.literal text)
  | pattern regex => exact hterminal token (.pattern regex)
  | reference name =>
    apply (Orderly.ofExcept _).bind_inside
    intro target
    apply (h target attempt.stream).bind_inside
    intro found
    cases found with
    | none => exact Orderly.pure _
    | some found =>
      apply (Orderly.embed attempt found).bind_inside
      intro next
      exact Orderly.pure _

theorem orderly_matchElements (rule : Rule) (attempt : Matcher.Attempt) (elements : List String)
    : Orderly g [] (matchElements g matcher rule attempt elements) := by
  induction elements generalizing attempt with
  | nil => exact Orderly.pure _
  | cons element elements ih =>
    apply (orderly_matchElement h rule attempt element).bind_inside
    intro next
    cases next with
    | none => exact Orderly.pure _
    | some next => exact ih next

theorem orderly_matchOptions (rule : Rule) (stream : TokenStream) (options : List (List String))
    : Orderly g [rule.name] (matchOptions g levels matcher rule stream options) := by
  induction options with
  | nil =>
    have hunmatched : Orderly g [rule.name] (due (.unmatched rule.name)) := Orderly.due rfl rfl
    apply hunmatched.bind
    intro _
    exact Orderly.pure none
  | cons option options ih =>
    cases option with
    | nil => exact orderly_success h rfl (.inl rfl) []
    | cons element elements =>
      apply Orderly.newNode.bind_inside
      intro node
      apply (orderly_matchElements h rule ⟨stream, [], node⟩ (element :: elements)).bind_inside
      intro last
      cases last with
      | none => exact ih
      | some attempt => exact orderly_success h rfl (.inr ⟨attempt.node, rfl⟩) attempt.tokens

end

theorem orderly_ofDepth (g : Grammar) (depth : Nat) (rule : Rule) (stream : TokenStream)
    : Orderly g [] (ofDepth g depth rule stream) := by
  induction depth generalizing rule stream with
  | zero => exact Orderly.call fun _ => ⟨nofun, .nil⟩
  | succ depth ih => exact (orderly_matchOptions ih rule stream rule.options).call

theorem ofDepth_steps (g : Grammar) (depth : Nat) (rule : Rule) (stream : TokenStream) (before : Nat)
    : ∃ steps, ((ofDepth g depth rule stream).ending before).steps = [.call rule.name steps] := by
  cases depth with
  | zero => exact ⟨_, rfl⟩
  | succ depth => exact ⟨_, rfl⟩

end Course

namespace Grammar.Entry

theorem course_cases (entry : Entry) (g : Grammar) (nestingLimit : Nat → Nat) (source : Source)
    : (∃ fault, entry.course g nestingLimit source = Course.ofExcept (.error fault))
      ∨ ∃ rule stream reported, entry.course g nestingLimit source
        = (Course.ofDepth g (nestingLimit stream.size) rule stream).asRun reported := by
  unfold course
  cases entry.rule? g.rules with
  | error fault => exact .inl ⟨fault, rfl⟩
  | ok rule =>
    cases hsource : TokenStream.openSource g.splitter source with
    | error fault =>
      left
      refine ⟨fault, ?_⟩
      unfold Course.start
      rw [hsource]
      rfl
    | ok stream =>
      right
      refine ⟨rule, stream, Run.reported rule stream.position, ?_⟩
      unfold Course.start
      rw [hsource]
      rfl

theorem fair_course (entry : Entry) (g : Grammar) (nestingLimit : Nat → Nat) (source : Source)
    (returned : Bool) (before : Nat)
    : Step.Fair g returned ((entry.course g nestingLimit source).ending before).steps := by
  rcases entry.course_cases g nestingLimit source with
    ⟨fault, hcourse⟩ | ⟨rule, stream, reported, hcourse⟩
  . rw [hcourse]
    exact .nil
  . rw [hcourse]
    exact (Course.orderly_ofDepth g _ rule stream before).fair.run returned

theorem course_steps {entry : Entry} {g : Grammar} {nestingLimit : Nat → Nat} {source : Source}
    {before : Nat} {found : Option Match}
    (h : ((entry.course g nestingLimit source).ending before).answer = .ok found)
    : ∃ rule steps,
        ((entry.course g nestingLimit source).ending before).steps = [.run true [.call rule steps]] := by
  rcases entry.course_cases g nestingLimit source with
    ⟨fault, hcourse⟩ | ⟨rule, stream, reported, hcourse⟩
  . rw [hcourse] at h
    cases h
  . rw [hcourse] at h ⊢
    rcases Course.ofDepth_steps g (nestingLimit stream.size) rule stream before with ⟨steps, hsteps⟩
    refine ⟨rule.name, steps, ?_⟩
    unfold Course.asRun at h ⊢
    dsimp only at h ⊢
    rw [hsteps]
    cases hanswer : ((Course.ofDepth g (nestingLimit stream.size) rule stream).ending before).answer with
    | error fault =>
      rw [hanswer] at h
      cases h
    | ok answer => rfl

/--
The trace tells the truth and changes nothing. A run takes the same course with a trace and without one:
it ends alike, and the same actions are called for the same nodes one after another. If nodes can always be made,
the rules that have matched according to the trace are those whose actions are called, in this order, and
however the run ends. And if it comes to an answer, every call of the matcher closes with exactly one line;
the runs that actions start are no exception, as far as they come to answers themselves.
-/
theorem run_traced (g : Grammar) (entry : Entry) (settings : Settings) (source : Source)
    (journal : Array Event)
    : let ending := (entry.course g settings.nestingLimit source).ending (Event.asks journal)
      (∀ tracing, entry.run { settings with tracing := tracing } source ⟨g, journal⟩
        = (ending.answer, ⟨g, journal ++ (Step.eventsOf tracing ending.steps).toArray⟩))
      ∧ untraced (Step.eventsOf true ending.steps).toArray = Step.eventsOf false ending.steps
      ∧ ((∀ before, ∃ node, g.factory.newNode before = .ok node) →
          Event.successes (Step.eventsOf true ending.steps)
            = Event.triggered (Step.eventsOf true ending.steps))
      ∧ (∀ step ∈ ending.steps, step.Closes ending.answer.isOk)
      ∧ ∀ found, ending.answer = .ok found →
          ∃ rule steps, ending.steps = [.run true [.call rule steps]] := by
  intro ending
  refine ⟨?_, ?_, ?_, ?_, ?_⟩
  . intro tracing
    exact (run_takes g entry { settings with tracing := tracing } source journal).1
  . exact Step.untraced_eventsOf ending.steps
  . exact (fair_course entry g settings.nestingLimit source true _).truthful
  . exact (fair_course entry g settings.nestingLimit source ending.answer.isOk _).closes
  . intro found hanswer
    exact course_steps hanswer

/--
A grammar in which the first option of a pair is given up after its item has matched. The action for a pair
starts a run of its own.
-/
def retrying : Grammar where
  rules := ⟨[
    { name := "pair", options := [["item", "\";", "item"], ["item"]]
      action := some fun node _ =>
        .parseAs (.text "item") (.stream ⟨#["b"], 0⟩) fun _ => .done node.toValue },
    { name := "item", options := [["\"a"], []] }]⟩

theorem run_traced_retrying
    : let traced := first.run { tracing := true } (.stream ⟨#["a"], 0⟩) ⟨retrying, #[]⟩
      Event.successes traced.2.journal.toList = Event.triggered traced.2.journal.toList
      ∧ Event.triggered traced.2.journal.toList = ["item", "item", "pair", "item"]
      ∧ (first.run {} (.stream ⟨#["a"], 0⟩) ⟨retrying, #[]⟩).1 = traced.1 := by
  rcases run_traced retrying first {} (.stream ⟨#["a"], 0⟩) #[] with ⟨hrun, _, htruthful, _⟩
  have htraced : first.run { tracing := true } (.stream ⟨#["a"], 0⟩) ⟨retrying, #[]⟩ = _ := hrun true
  have hsilent : first.run {} (.stream ⟨#["a"], 0⟩) ⟨retrying, #[]⟩ = _ := hrun false
  have hnode (before : Nat) : ∃ node, retrying.factory.newNode before = .ok node := ⟨_, rfl⟩
  refine ⟨?_, by decide +kernel, ?_⟩
  . rw [htraced, Array.toList_append]
    exact htruthful hnode
  . rw [htraced, hsilent]

/--
A grammar of a rule that matches without tokens, and whose factory makes numbers, which cannot serve as
nodes.
-/
def unfitBlank : Grammar where
  factory := .constant (.ok (.unfit "int"))
  rules := ⟨[{ name := "blank", options := [[]] }]⟩

/--
The empty option is told of before there is a node for it. If no node can be made its action is not
called.
-/
theorem run_traced_unfit
    : let traced := first.run { tracing := true } (.stream ⟨#["a"], 0⟩) ⟨unfitBlank, #[]⟩
      (∀ before, unfitBlank.factory.make before = .ok (.unfit "int")) ∧ traced.1 = .error (.badProduct "int")
      ∧ Event.successes traced.2.journal.toList = ["blank"]
      ∧ Event.triggered traced.2.journal.toList = [] := by
  intro traced
  exact ⟨fun _ => rfl, rfl, rfl, rfl⟩

end Grammar.Entry
end TokenGrammar
