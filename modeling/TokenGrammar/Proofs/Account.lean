import TokenGrammar.Proofs.Course
import TokenGrammar.Proofs.Recognition

/-!
This module contains an account of every answer of the matcher: a match or the lack of one is what
the rule yields, and an error has a place in the tree of calls and a cause there, unless the last thing
that happens in the course of the run is a call of the node factory, of a node or of an action that
raises it. Later statements about answers follow from this account.
-/

namespace TokenGrammar

/--
A node that comes from the factory, with the items that it has taken since.
-/
inductive NodeFactory.Makes (factory : NodeFactory) : Node → Prop where
  | new {before node} (h : factory.newNode before = .ok node) : Makes factory node
  | add {node item next} (hnode : Makes factory node) (h : node.add item = .ok next)
      : Makes factory next

theorem NodeFactory.Makes.add_list {factory : NodeFactory} {node : Node} {item : Value}
    (h : factory.Makes node) (hfactory : factory = .list)
    : node.add item = .ok { node with items := node.items ++ [item] } := by
  have hshape : node.shape = .list := by
    induction h with
    | new h =>
      rw [hfactory] at h
      cases h
      rfl
    | add _ hadd ih =>
      unfold Node.add at hadd
      rw [ih] at hadd
      cases hadd
      rfl
  unfold Node.add
  rw [hshape]

/--
The step ends with a call that raises the error: of the node factory, of a node that takes an item, or
of the action of a rule that has at least `room` levels left for the runs that it may start.
-/
inductive Step.Raises (g : Grammar) (room : Nat) (fault : Fault) : Step → Prop where
  | factory {before} (h : g.factory.newNode before = .error fault)
      : Raises g room fault (.asked (before + 1) (.error fault))
  | node {node item} (hnode : g.factory.Makes node) (h : node.add item = .error fault)
      : Raises g room fault (.offered node item)
  | action {rule node levels before} (hrule : rule ∈ g.rules.toList) (hnode : g.factory.Makes node)
      (hroom : room ≤ levels)
      (h : ((Course.perform g (Course.ofDepth g levels) (rule.act node)).ending before).answer
        = .error fault)
      : Raises g room fault (.action rule.name rule.action.isSome node levels (.error fault)
          ((Course.perform g (Course.ofDepth g levels) (rule.act node)).ending before).steps)
  | call {rule steps step} (hlast : steps.getLast? = some step) (h : Raises g room fault step)
      : Raises g room fault (.call rule steps)
  | run {steps step} (hlast : steps.getLast? = some step) (h : Raises g room fault step)
      : Raises g room fault (.run false steps)

/--
The last step ends with a call that raises the error.
-/
def Ending.Raises {α : Type} (ending : Ending α) (g : Grammar) (room : Nat) (fault : Fault) : Prop :=
  ∃ step, ending.steps.getLast? = some step ∧ step.Raises g room fault

/--
Neither the node factory nor a node that it makes raises an error, and neither does an action that is
called while the grammar is in use.
-/
structure Grammar.Harmless (g : Grammar) : Prop where
  newNode : ∀ before, ∃ node, g.factory.newNode before = .ok node
  add : ∀ node item, g.factory.Makes node → ∃ next, node.add item = .ok next
  act : ∀ rule ∈ g.rules.toList, ∀ node, g.factory.Makes node → ∀ tracing depth journal,
    ∃ value, (Run.perform (Matcher.ofDepth tracing depth) (rule.act node) ⟨g.sealed, journal⟩).1
      = .ok value

namespace Course

variable {α β : Type}

/--
What the course returns satisfies `holds`, and an error that it ends with satisfies `failing` unless
its last step raises it.
-/
def Ensures (g : Grammar) (room : Nat) (course : Course α) (holds : α → Prop)
    (failing : Fault → Prop) : Prop :=
  ∀ before, match (course.ending before).answer with
    | .ok a => holds a
    | .error fault => failing fault ∨ (course.ending before).Raises g room fault

namespace Ensures

variable {g : Grammar} {room : Nat} {holds : β → Prop} {failing : Fault → Prop}

theorem holds_of_ok {course : Course β} (h : Ensures g room course holds failing) {before : Nat}
    {b : β} (hcourse : (course.ending before).answer = .ok b)
    : holds b := by
  have := h before
  rw [hcourse] at this
  exact this

theorem failing_of_error {course : Course β} (h : Ensures g room course holds failing)
    {before : Nat} {fault : Fault} (hcourse : (course.ending before).answer = .error fault)
    : failing fault ∨ (course.ending before).Raises g room fault := by
  have := h before
  rw [hcourse] at this
  exact this

theorem mono {course : Course β} {holds' : β → Prop} {failing' : Fault → Prop}
    (h : Ensures g room course holds' failing') (hholds : ∀ b, holds' b → holds b)
    (hfailing : ∀ fault, failing' fault → failing fault)
    : Ensures g room course holds failing := by
  intro before
  have hanswer := h before
  split at hanswer
  . exact hholds _ hanswer
  . exact hanswer.imp_left (hfailing _)

theorem mono_holds {course : Course β} {holds' : β → Prop}
    (h : Ensures g room course holds' failing) (hholds : ∀ b, holds' b → holds b)
    : Ensures g room course holds failing :=
  h.mono hholds fun _ h => h

theorem mono_failing {course : Course β} {failing' : Fault → Prop}
    (h : Ensures g room course holds failing')
    (hfailing : ∀ fault, failing' fault → failing fault)
    : Ensures g room course holds failing :=
  h.mono (fun _ h => h) hfailing

theorem pure {b : β} (h : holds b) : Ensures g room (pure b) holds failing :=
  fun _ => h

theorem throw {fault : Fault} (h : failing fault)
    : Ensures g room (Course.ofExcept (.error fault)) holds failing :=
  fun _ => .inl h

theorem bind {course : Course α} {f : α → Course β} {mid : α → Prop}
    (hcourse : Ensures g room course mid failing)
    (hok : ∀ a, mid a → Ensures g room (f a) holds failing)
    : Ensures g room (course >>= f) holds failing := by
  intro before
  have hmid := hcourse before
  cases hanswer : (course.ending before).answer with
  | error fault =>
    rw [hanswer] at hmid
    rw [bind_of_error hanswer]
    exact hmid
  | ok a =>
    rw [hanswer] at hmid
    have hrest := hok a hmid (course.ending before).asks
    rw [bind_of_ok hanswer]
    dsimp only
    split
    . next b hb =>
      rw [hb] at hrest
      exact hrest
    . next fault hfault =>
      rw [hfault] at hrest
      -- the last step of the second part is the last one of all
      rcases hrest with hfailing | ⟨step, hlast, hraises⟩
      . exact .inl hfailing
      . refine .inr ⟨step, ?_, hraises⟩
        rw [List.getLast?_append, hlast]
        rfl

theorem ofExcept {answer : Except Fault β} (hok : ∀ b, answer = .ok b → holds b)
    (herror : ∀ fault, answer = .error fault → failing fault)
    : Ensures g room (Course.ofExcept answer) holds failing := by
  cases answer with
  | ok b => exact pure (hok b rfl)
  | error fault => exact throw (herror fault rfl)

theorem due_bind {line : TraceLine} {f : Unit → Course β}
    (h : Ensures g room (f ()) holds failing)
    : Ensures g room (Course.due line >>= f) holds failing := by
  have hdue : Ensures g room (Course.due line) (fun _ => True) failing := fun _ => trivial
  exact hdue.bind fun _ _ => h

theorem newNode {failing : Fault → Prop}
    : Ensures g room (Course.newNode g.factory) g.factory.Makes failing := by
  intro before
  unfold Course.newNode
  dsimp only
  cases hnode : g.factory.newNode before with
  | ok node => exact .new hnode
  | error fault => exact .inr ⟨_, rfl, .factory hnode⟩

theorem offer {node : Node} {failing : Fault → Prop} (hnode : g.factory.Makes node) (item : Value)
    : Ensures g room (Course.offer node item) g.factory.Makes failing := by
  intro before
  unfold Course.offer
  dsimp only
  cases hadd : node.add item with
  | ok next => exact .add hnode hadd
  | error fault => exact .inr ⟨_, rfl, .node hnode hadd⟩

theorem offerToken {node : Node} {failing : Fault → Prop} (hnode : g.factory.Makes node)
    (token : Option String)
    : Ensures g room (Course.offerToken node token) g.factory.Makes failing := by
  cases token with
  | none => exact pure hnode
  | some token => exact offer hnode (.text token)

theorem act {levels : Nat} {rule : Rule} {node : Node} {failing : Fault → Prop}
    (hrule : rule ∈ g.rules.toList) (hnode : g.factory.Makes node) (hroom : room ≤ levels)
    : Ensures g room (Course.act g levels (ofDepth g levels) rule node) (fun _ => True) failing := by
  intro before
  cases hanswer : ((perform g (ofDepth g levels) (rule.act node)).ending before).answer with
  | ok value =>
    unfold Course.act within
    dsimp only
    rw [hanswer]
    trivial
  | error fault =>
    have hraises := Step.Raises.action hrule hnode hroom hanswer
    unfold Course.act within
    dsimp only
    rw [hanswer]
    exact .inr ⟨_, rfl, hraises⟩

theorem call {rule : String} {course : Course β} (h : Ensures g room course holds failing)
    : Ensures g room (course.within fun _ => .call rule) holds failing := by
  intro before
  have hanswer := h before
  unfold Course.within
  dsimp only
  split at hanswer
  . exact hanswer
  . rcases hanswer with hfailing | ⟨step, hlast, hraises⟩
    . exact .inl hfailing
    . exact .inr ⟨_, rfl, .call hlast hraises⟩

end Ensures
end Course

namespace Matcher

/--
An option of the rule has the element, and matched from the stream the elements before it put the
cursor to the given place.
-/
def Reaches (rules : RuleSet) (rule : Rule) (stream : TokenStream) (element : String)
    (there : TokenStream) : Prop :=
  ∃ before after tokens, before ++ element :: after ∈ rule.options
    ∧ Yields rules (.sequence before) stream (some (tokens, there))

theorem Reaches.mem {rules : RuleSet} {rule : Rule} {stream there : TokenStream} {element : String}
    (h : Reaches rules rule stream element there)
    : ∃ option ∈ rule.options, element ∈ option := by
  rcases h with ⟨before, after, _, hoption, _⟩
  exact ⟨_, hoption, by simp⟩

theorem Reaches.advance {rules : RuleSet} {rule : Rule} {stream there : TokenStream}
    {element : String} (h : Reaches rules rule stream element there) (hpos : 0 ≤ stream.position)
    : there.tokens = stream.tokens ∧ stream.position ≤ there.position := by
  rcases h with ⟨before, after, tokens, _, hbefore⟩
  rcases hbefore.advance hpos with ⟨htokens, hposition⟩
  refine ⟨htokens, ?_⟩
  omega

/--
While the one call of the matcher is under way it makes the other one.
-/
def Calls (rules : RuleSet) (call next : Rule × TokenStream) : Prop :=
  ∃ element name, Reaches rules call.1 call.2 element next.2
    ∧ Element.read element = .ok (.reference name) ∧ rules.find? name = some next.1

theorem Calls.mem {rules : RuleSet} {call next : Rule × TokenStream} (h : Calls rules call next)
    : next.1 ∈ rules.toList := by
  rcases h with ⟨_, _, _, _, hfind⟩
  exact RuleSet.mem_of_find? hfind

theorem Calls.advance {rules : RuleSet} {call next : Rule × TokenStream} (h : Calls rules call next)
    (hpos : 0 ≤ call.2.position)
    : next.2.tokens = call.2.tokens ∧ call.2.position ≤ next.2.position := by
  rcases h with ⟨element, name, hreach, _⟩
  exact hreach.advance hpos

/--
How a call of the matcher comes to fail with an error, by how the calls that it makes do. What the node
factory, nodes and actions raise is left out.
-/
inductive Causes (rules : RuleSet) (failing : Rule → TokenStream → Fault → Prop) (rule : Rule)
    (stream : TokenStream) : Fault → Prop where
  | looking {element there fault} (hreach : Reaches rules rule stream element there)
      (h : there.peek 0 = .error fault) : Causes rules failing rule stream fault
  | reading {element there fault} (hreach : Reaches rules rule stream element there)
      (h : Element.read element = .error fault) : Causes rules failing rule stream fault
  | stepping {element there fault} (hreach : Reaches rules rule stream element there)
      (h : there.next = .error fault) : Causes rules failing rule stream fault
  | unknown {element there name} (hreach : Reaches rules rule stream element there)
      (hread : Element.read element = .ok (.reference name)) (hfind : rules.find? name = none)
      : Causes rules failing rule stream (.unknownRule (.text name))
  | calling {target there fault} (hcall : Calls rules (rule, stream) (target, there))
      (h : failing target there fault) : Causes rules failing rule stream fault

/--
What the matcher returns for the options is what they yield.
-/
def Recognised (rules : RuleSet) (options : List (List String)) (stream : TokenStream)
    : Option Match → Prop
  | none => Yields rules (.choice options) stream none
  | some found => ∃ there, Yields rules (.choice options) stream (some (found.tokens, there))

/--
The next attempt is what the form yields after the present one, with a node that comes from the factory.
-/
def Attempt.Continues (g : Grammar) (form : Form) (attempt : Attempt) : Option Attempt → Prop
  | none => Yields g.rules form attempt.stream none
  | some next =>
    g.factory.Makes next.node ∧ ∃ tokens, next.tokens = attempt.tokens ++ tokens
      ∧ Yields g.rules form attempt.stream (some (tokens, next.stream))

end Matcher

namespace Course

open Matcher (Attempt Reaches Calls Causes Recognised Yields)

variable {g : Grammar} {levels room : Nat} {matcher : CourseMatcher} {rule : Rule}
  {stream : TokenStream} {attempt : Attempt} {element : String}

theorem ofExcept_ok_bind {α β : Type} (a : α) (f : α → Course β) : ofExcept (.ok a) >>= f = f a := rfl

theorem matchElement_terminal {token : Option String} {terminal : Element}
    (hpeek : attempt.stream.peek 0 = .ok token) (hread : Element.read element = .ok terminal)
    (hterminal : ∀ name, terminal ≠ .reference name)
    : matchElement g matcher rule attempt element
        =
      (do
        due (.tried rule.name element token)
        if terminal.accepts token then return some (← consume attempt token)
        else return none) := by
  unfold matchElement
  rw [hpeek, hread]
  cases terminal with
  | literal text => rfl
  | pattern regex => rfl
  | reference name => exact (hterminal name rfl).elim

theorem matchElement_reference {token : Option String} {name : String}
    (hpeek : attempt.stream.peek 0 = .ok token)
    (hread : Element.read element = .ok (.reference name))
    : matchElement g matcher rule attempt element
        =
      (do
        due (.tried rule.name element token)
        let target ← ofExcept (g.rules.lookup (.text name))
        match ← matcher target attempt.stream with
        | some found => return some (← embed attempt found)
        | none => return none) := by
  unfold matchElement
  rw [hpeek, hread]
  rfl

theorem ensures_consume (hnode : g.factory.Makes attempt.node) (token : Option String)
    : Ensures g room (consume attempt token)
        (fun next => g.factory.Makes next.node ∧ next.tokens = attempt.tokens ++ token.toList
          ∧ ∃ taken, attempt.stream.next = .ok (taken, next.stream))
        (fun fault => attempt.stream.next = .error fault) := by
  unfold consume
  apply (Ensures.offerToken hnode token).bind
  intro node hnode
  cases hnext : attempt.stream.next with
  | error fault => exact Ensures.throw rfl
  | ok taken => exact Ensures.pure ⟨hnode, rfl, taken.1, rfl⟩

theorem ensures_embed {failing : Fault → Prop} (hnode : g.factory.Makes attempt.node) (found : Match)
    : Ensures g room (embed attempt found)
        (fun next => g.factory.Makes next.node ∧ next.tokens = attempt.tokens ++ found.tokens
          ∧ next.stream = attempt.stream.move (max found.tokens.length 1))
        failing := by
  unfold embed
  apply (Ensures.offer hnode found.result).bind
  intro node hnode
  exact Ensures.pure ⟨hnode, rfl, rfl⟩

section

variable {failing : Rule → TokenStream → Fault → Prop}
  (hmatcher : ∀ target there, Calls g.rules (rule, stream) (target, there) →
    Ensures g room (matcher target there) (Recognised g.rules target.options there)
      (failing target there))

include hmatcher

theorem ensures_matchElement (hnode : g.factory.Makes attempt.node)
    (hreach : Reaches g.rules rule stream element attempt.stream)
    : Ensures g room (matchElement g matcher rule attempt element)
        (attempt.Continues g (.element element)) (Causes g.rules failing rule stream) := by
  cases hpeek : attempt.stream.peek 0 with
  | error fault =>
    unfold matchElement
    rw [hpeek]
    exact Ensures.throw (.looking hreach hpeek)
  | ok token =>
    cases hread : Element.read element with
    | error fault =>
      unfold matchElement
      rw [hpeek, hread, ofExcept_ok_bind]
      apply Ensures.due_bind
      exact Ensures.throw (.reading hreach hread)
    | ok read =>
      by_cases href : ∃ name, read = .reference name
      . rcases href with ⟨name, rfl⟩
        rw [matchElement_reference hpeek hread]
        apply Ensures.due_bind
        rw [RuleSet.lookup_text]
        cases hfind : g.rules.find? name with
        | none => exact Ensures.throw (.unknown hreach hread hfind)
        | some target =>
          have hcall : Calls g.rules (rule, stream) (target, attempt.stream) :=
            ⟨element, name, hreach, hread, hfind⟩
          apply ((hmatcher target attempt.stream hcall).mono_failing fun _ h => .calling hcall h).bind
          intro answer hanswer
          cases answer with
          | none => exact Ensures.pure (.missed hpeek hread hfind hanswer)
          | some found =>
            rcases hanswer with ⟨there, hbody⟩
            apply (ensures_embed hnode found).bind
            intro next hnext
            rcases hnext with ⟨hmakes, htokens, hstream⟩
            apply Ensures.pure
            refine ⟨hmakes, found.tokens, htokens, ?_⟩
            rw [hstream]
            exact .found hpeek hread hfind hbody
      . have hterminal : ∀ name, read ≠ .reference name := not_exists.mp href
        rw [matchElement_terminal hpeek hread hterminal]
        apply Ensures.due_bind
        split
        . next haccepts =>
          apply ((ensures_consume hnode token).mono_failing fun _ h => .stepping hreach h).bind
          intro next hnext
          rcases hnext with ⟨hmakes, htokens, taken, htaken⟩
          exact Ensures.pure ⟨hmakes, token.toList, htokens, .accepted hpeek hread haccepts htaken⟩
        . next haccepts =>
          exact Ensures.pure (.refused hpeek hread hterminal (by simpa using haccepts))

theorem ensures_matchElements {before elements : List String}
    (hoption : before ++ elements ∈ rule.options) (hnode : g.factory.Makes attempt.node)
    (hbefore : Yields g.rules (.sequence before) stream (some (attempt.tokens, attempt.stream)))
    : Ensures g room (matchElements g matcher rule attempt elements)
        (attempt.Continues g (.sequence elements)) (Causes g.rules failing rule stream) := by
  -- `before` are the elements that the attempt has behind it: each element is reached in its turn
  induction elements generalizing before attempt with
  | nil => exact Ensures.pure ⟨hnode, [], by simp, .finished⟩
  | cons element elements ih =>
    unfold matchElements
    apply (ensures_matchElement hmatcher hnode ⟨before, elements, _, hoption, hbefore⟩).bind
    intro answer hanswer
    cases answer with
    | none => exact Ensures.pure (.stopped hanswer)
    | some next =>
      rcases hanswer with ⟨hmakes, tokens, htokens, hfirst⟩
      have hnext := hbefore.snoc hfirst
      rw [← htokens] at hnext
      apply (ih (by simpa using hoption) hmakes hnext).mono_holds
      intro answer hanswer
      cases answer with
      | none => exact .broken hfirst hanswer
      | some last =>
        rcases hanswer with ⟨hlast, more, hmore, hrest⟩
        refine ⟨hlast, tokens ++ more, ?_, .joined hfirst hrest⟩
        rw [hmore, htokens, List.append_assoc]

end

theorem ensures_matchOptions {failing : Rule → TokenStream → Fault → Prop}
    (hrule : rule ∈ g.rules.toList) (hroom : room ≤ levels)
    (hmatcher : ∀ target there, Calls g.rules (rule, stream) (target, there) →
      Ensures g room (ofDepth g levels target there) (Recognised g.rules target.options there)
        (failing target there))
    {options : List (List String)} (hoptions : ∀ option ∈ options, option ∈ rule.options)
    : Ensures g room (matchOptions g levels (ofDepth g levels) rule stream options)
        (Recognised g.rules options stream) (Causes g.rules failing rule stream) := by
  induction options with
  | nil =>
    unfold matchOptions
    apply Ensures.due_bind
    exact Ensures.pure .exhausted
  | cons option options ih =>
    cases option with
    | nil =>
      unfold matchOptions
      apply Ensures.due_bind
      apply Ensures.newNode.bind
      intro node hnode
      apply (Ensures.act hrule hnode hroom).bind
      intro result _
      exact Ensures.pure ⟨stream, .chosen .finished⟩
    | cons element elements =>
      have hoption : [] ++ element :: elements ∈ rule.options := by
        apply hoptions
        simp
      unfold matchOptions
      apply Ensures.newNode.bind
      intro node hnode
      apply (ensures_matchElements hmatcher hoption hnode .finished).bind
      intro answer hanswer
      cases answer with
      | some attempt =>
        rcases hanswer with ⟨hnode, tokens, htokens, hyields⟩
        rw [List.nil_append] at htokens
        apply Ensures.due_bind
        apply (Ensures.act hrule hnode hroom).bind
        intro result _
        apply Ensures.pure
        refine ⟨attempt.stream, ?_⟩
        rw [htokens]
        exact .chosen hyields
      | none =>
        have hrest : ∀ option ∈ options, option ∈ rule.options := by
          intro option h
          apply hoptions
          simp [h]
        apply (ih hrest).mono_holds
        intro found hfound
        cases found with
        | none => exact .passed hanswer hfound
        | some found =>
          rcases hfound with ⟨there, hthere⟩
          exact ⟨there, .passed hanswer hthere⟩

theorem ensures_ofDepth_succ {depth : Nat} {failing : Rule → TokenStream → Fault → Prop}
    (hrule : rule ∈ g.rules.toList) (hroom : room ≤ depth)
    (hmatcher : ∀ target there, Calls g.rules (rule, stream) (target, there) →
      Ensures g room (ofDepth g depth target there) (Recognised g.rules target.options there)
        (failing target there))
    : Ensures g room (ofDepth g (depth + 1) rule stream)
        (Recognised g.rules rule.options stream) (Causes g.rules failing rule stream) := by
  apply Ensures.call
  exact ensures_matchOptions hrule hroom hmatcher fun _ h => h

end Course

theorem Course.recognised_ofDepth {g : Grammar} {rule : Rule} (hrule : rule ∈ g.rules.toList)
    (depth : Nat) (stream : TokenStream)
    : Ensures g 0 (ofDepth g depth rule stream) (Matcher.Recognised g.rules rule.options stream)
        (fun _ => True) := by
  induction depth generalizing rule stream with
  | zero => exact Ensures.call (Ensures.throw trivial)
  | succ depth ih =>
    have hcalls (target : Rule) (there : TokenStream)
        (hcall : Matcher.Calls g.rules (rule, stream) (target, there)) := ih hcall.mem there
    apply (ensures_ofDepth_succ hrule (Nat.zero_le _) hcalls).mono_failing
    simp

namespace Grammar

-- any journal will do in which the factory has been asked so many times
theorem perform_answer (g : Grammar) (tracing : Bool) (levels : Nat) (script : Script) (before : Nat)
    : ((Course.perform g (Course.ofDepth g levels) script).ending before).answer
        = (Run.perform (Matcher.ofDepth tracing levels) script ⟨g.sealed, #[.asked before]⟩).1 := by
  have hrunning : g.running + 2 ≠ 0 := Nat.succ_ne_zero _
  have hguides := Course.ofDepth_guides g tracing levels hrunning
  have htakes := Course.perform_takes (Nat.succ_ne_zero g.running) hguides script #[.asked before]
  have hasks : Event.asks #[.asked before] = before := Event.asks_push_asked #[] before
  rw [hasks] at htakes
  exact (congrArg Prod.fst htakes.1).symm

theorem Harmless.not_raises {g : Grammar} (h : g.Harmless) {room : Nat} {fault : Fault} {step : Step}
    : ¬ step.Raises g room fault := by
  intro hraises
  induction hraises with
  | @factory before hnode =>
    rcases h.newNode before with ⟨node, hok⟩
    rw [hok] at hnode
    cases hnode
  | @node node item hnode hadd =>
    rcases h.add node item hnode with ⟨next, hok⟩
    rw [hok] at hadd
    cases hadd
  | @action rule node levels before hrule hnode hroom hanswer =>
    rcases h.act rule hrule node hnode false levels #[.asked before] with ⟨value, hok⟩
    rw [← perform_answer, hanswer] at hok
    cases hok
  | call _ _ ih => exact ih
  | run _ _ ih => exact ih

theorem harmless_of_actions {g : Grammar} (hfactory : g.factory = .list)
    (hactions : ∀ rule ∈ g.rules.toList, rule.action = none)
    : g.Harmless := by
  refine ⟨?_, ?_, ?_⟩
  . intro before
    rw [hfactory]
    exact ⟨_, rfl⟩
  . intro node item hnode
    exact ⟨_, hnode.add_list hfactory⟩
  . intro rule hrule node _ tracing depth journal
    unfold Rule.act
    rw [hactions rule hrule]
    exact ⟨_, rfl⟩

namespace Entry

variable {entry : Entry} {g : Grammar} {rule : Rule} {source : Source} {stream : TokenStream}
  {settings : Settings} {journal : Array Event}

/--
The course of the run that is started with this journal.
-/
def endingOf (entry : Entry) (settings : Settings) (source : Source) (session : Session) :
    Ending (Option Match) :=
  (entry.course session.grammar settings.nestingLimit source).ending (Event.asks session.journal)

theorem run_answer (entry : Entry) (settings : Settings) (source : Source) (session : Session)
    : (entry.run settings source session).1 = (entry.endingOf settings source session).answer := by
  rw [(run_takes session.grammar entry settings source session.journal).1]
  rfl

theorem course_eq (hrule : entry.rule? g.rules = .ok rule)
    (hsource : TokenStream.openSource g.splitter source = .ok stream) (nestingLimit : Nat → Nat)
    : entry.course g nestingLimit source
        =
      (Course.ofDepth g (nestingLimit stream.size) rule stream).asRun
        (Run.reported rule stream.position) := by
  unfold course Course.start
  rw [hrule, Course.ofExcept_ok_bind, hsource, Course.ofExcept_ok_bind]

section

variable {room : Nat} {holds : Option Match → Prop} {failing : Fault → Prop}
  (hrule : entry.rule? g.rules = .ok rule)
  (hsource : TokenStream.openSource g.splitter source = .ok stream)
  (h : Course.Ensures g room (Course.ofDepth g (settings.nestingLimit stream.size) rule stream) holds
    failing)

include hrule hsource h

theorem holds_of_run {answer : Option Match}
    (hrun : (entry.run settings source ⟨g, journal⟩).1 = .ok answer)
    : holds answer := by
  rw [run_answer, endingOf, course_eq hrule hsource] at hrun
  have hanswer := h (Event.asks journal)
  unfold Course.asRun at hrun
  dsimp only at hrun
  split at hanswer
  . next heq =>
    rw [heq] at hrun
    cases hrun
    exact hanswer
  . next heq =>
    rw [heq] at hrun
    cases hrun

theorem failing_of_run {fault : Fault}
    (hrun : (entry.run settings source ⟨g, journal⟩).1 = .error fault)
    : ∃ inner, (failing inner ∨ (entry.endingOf settings source ⟨g, journal⟩).Raises g room inner)
      ∧ fault = Run.reported rule stream.position inner := by
  rw [run_answer] at hrun
  unfold endingOf at hrun ⊢
  rw [course_eq hrule hsource] at hrun ⊢
  have hanswer := h (Event.asks journal)
  unfold Course.asRun at hrun ⊢
  dsimp only at hrun ⊢
  split at hanswer
  . next heq =>
    rw [heq] at hrun
    cases hrun
  . next inner heq =>
    rw [heq] at hrun ⊢
    cases hrun
    refine ⟨inner, ?_, rfl⟩
    apply hanswer.imp_right
    rintro ⟨step, hlast, hraises⟩
    exact ⟨_, rfl, .run hlast hraises⟩

end

end Entry
end Grammar
end TokenGrammar
