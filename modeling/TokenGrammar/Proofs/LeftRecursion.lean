import TokenGrammar.Proofs.Cursor
import TokenGrammar.Proofs.Exchange

/-!
This module contains rules that call one another without end before any token is consumed: the first
option of each one begins with a reference to the next. Nothing else is ever come to, neither another
option nor an action, so a run of such a rule uses up any limit, and it reports the rule and the place
where it has started.
-/

namespace TokenGrammar

/--
The first option of the rule begins with a reference to the target.
-/
def RuleSet.FirstCalls (rules : RuleSet) (rule target : Rule) : Prop :=
  ∃ element elements options name, rule.options = (element :: elements) :: options
    ∧ Element.read element = .ok (.reference name) ∧ rules.find? name = some target

namespace Run

variable {g : Grammar} {α β : Type} {failing : Fault → Prop}

/--
Started with the given grammar the run leaves it as it is and calls no action. It ends with an error, and
the error satisfies `failing`.
-/
def Throws (g : Grammar) (run : Run α) (failing : Fault → Prop) : Prop :=
  ∀ journal, ∃ fault after, run ⟨g, journal⟩ = (.error fault, ⟨g, after⟩) ∧ failing fault
    ∧ SameEffects journal after

namespace Throws

theorem throw {fault : Fault} (h : failing fault) : Throws g (throw fault : Run α) failing :=
  fun journal => ⟨fault, journal, rfl, h, rfl⟩

theorem bind {run : Run α} (h : Throws g run failing) (f : α → Run β)
    : Throws g (run >>= f) failing := by
  intro journal
  rcases h journal with ⟨fault, after, hrun, hrest⟩
  refine ⟨fault, after, ?_, hrest⟩
  rw [bind_apply, hrun]

theorem grammar_bind {f : Grammar → Run α} (h : Throws g (f g) failing)
    : Throws g (grammar >>= f) failing :=
  h

theorem ofExcept_bind {a : α} {f : α → Run β} (h : Throws g (f a) failing)
    : Throws g (ofExcept (.ok a) >>= f) failing := by
  intro journal
  rw [bind_apply]
  exact h journal

theorem trace_bind {tracing : Bool} {line : TraceLine} {f : Unit → Run α}
    (h : Throws g (f ()) failing)
    : Throws g (trace tracing line >>= f) failing := by
  intro journal
  rcases exists_trace tracing line journal with ⟨after, hafter, htrace⟩
  rcases h after with ⟨fault, after', hrun, hfault, hafter'⟩
  refine ⟨fault, after', ?_, hfault, hafter.trans hafter'⟩
  rw [bind_apply, htrace]
  exact hrun

theorem newNode_bind {f : Node → Run α}
    (hfailing : ∀ before fault, g.factory.newNode before = .error fault → failing fault)
    (h : ∀ node, Throws g (f node) failing)
    : Throws g (newNode >>= f) failing := by
  intro journal
  have hasked := effects_push_asked journal (Event.asks journal + 1)
  rw [bind_apply, newNode_apply]
  cases hnode : g.factory.newNode (Event.asks journal) with
  | error fault => exact ⟨fault, _, rfl, hfailing _ fault hnode, hasked.symm⟩
  | ok node =>
    rcases h node (journal.push (.asked (Event.asks journal + 1)))
      with ⟨fault, after, hrun, hfault, hafter⟩
    exact ⟨fault, after, hrun, hfault, hasked.symm.trans hafter⟩

/--
A run whose matcher ends with an error reports this error.
-/
theorem start {matcher : Matcher} {rule : Rule} {source : Source} {stream : TokenStream}
    (hsource : TokenStream.openSource g.splitter source = .ok stream)
    (h : Throws g.sealed (matcher rule stream) failing)
    : Throws g (start matcher rule source)
        (fun fault => ∃ inner, failing inner ∧ fault = reported rule stream.position inner) := by
  rw [start_eq]
  apply grammar_bind
  rw [hsource]
  apply ofExcept_bind
  intro journal
  rcases h journal with ⟨fault, after, hrun, hfault, hafter⟩
  refine ⟨_, after, ?_, ⟨fault, hfault, rfl⟩, hafter⟩
  rw [sealing_apply, bind_apply, outcome_apply, hrun]
  rfl

end Throws
end Run

namespace Matcher

variable {g : Grammar} {tracing : Bool} {matcher : Matcher} {rule target : Rule}
  {stream : TokenStream} {failing : Fault → Prop}

theorem matchElement_throws (attempt : Attempt) {element name : String}
    (hpos : 0 ≤ attempt.stream.position) (hread : Element.read element = .ok (.reference name))
    (hfind : g.rules.find? name = some target)
    (htarget : Run.Throws g (matcher target attempt.stream) failing)
    : Run.Throws g (matchElement tracing matcher rule attempt element) failing := by
  rw [matchElement_reference (TokenStream.peek_zero hpos) hread]
  apply Run.Throws.trace_bind
  apply Run.Throws.grammar_bind
  rw [RuleSet.lookup_text, hfind]
  apply Run.Throws.ofExcept_bind
  exact htarget.bind _

/--
Where a reference at the beginning of an option ends with an error, the options behind are not tried.
-/
theorem matchOptions_throws {element name : String} (hpos : 0 ≤ stream.position)
    (hfactory : ∀ before fault, g.factory.newNode before = .error fault → failing fault)
    (hread : Element.read element = .ok (.reference name)) (hfind : g.rules.find? name = some target)
    (htarget : Run.Throws g (matcher target stream) failing) (elements : List String)
    (options : List (List String))
    : Run.Throws g (matchOptions tracing matcher rule stream ((element :: elements) :: options))
        failing := by
  unfold matchOptions
  apply Run.Throws.newNode_bind hfactory
  intro node
  apply Run.Throws.bind
  unfold matchElements
  apply Run.Throws.bind
  exact matchElement_throws ⟨stream, [], node⟩ hpos hread hfind htarget

-- the stream stays where it is from rule to rule, so the limit alone falls
theorem ofDepth_throws {chain : Nat → Rule} (hpos : 0 ≤ stream.position)
    (hchain : ∀ place, g.rules.FirstCalls (chain place) (chain (place + 1))) (tracing : Bool)
    (depth place : Nat)
    : Run.Throws g (ofDepth tracing depth (chain place) stream)
        (fun fault => fault = .exhausted ∨ ∃ before, g.factory.newNode before = .error fault) := by
  induction depth generalizing place with
  | zero => exact Run.Throws.throw (.inl rfl)
  | succ depth ih =>
    rcases hchain place with ⟨element, elements, options, name, hoptions, hread, hfind⟩
    unfold ofDepth
    rw [hoptions]
    apply matchOptions_throws hpos _ hread hfind (ih (place + 1))
    intro before fault hfault
    exact .inr ⟨before, hfault⟩

end Matcher

namespace Grammar.Entry

theorem run_throws {g : Grammar} {entry : Entry} {settings : Settings} {rule : Rule}
    {source : Source} {failing : Fault → Prop} (hrule : entry.rule? g.rules = .ok rule)
    (h : Run.Throws g (Run.start (Matcher.ofSettings settings) rule source) failing)
    : Run.Throws g (entry.run settings source) failing := by
  rw [run_eq]
  apply Run.Throws.grammar_bind
  rw [hrule]
  exact Run.Throws.ofExcept_bind h

/--
The rules lead from one to the next by their first options, and the rule set being finite they come back
to one of them sooner or later. A run of the first one ends with an error, whatever the limit, and it
calls no action. The error is that the limit is used up, with the rule and the place where the run has
started, unless it is that no node can be made.
-/
theorem run_exhausts {g : Grammar} {chain : Nat → Rule} {entry : Entry} {source : Source}
    {stream : TokenStream} (hchain : ∀ place, g.rules.FirstCalls (chain place) (chain (place + 1)))
    (hrule : entry.rule? g.rules = .ok (chain 0))
    (hsource : TokenStream.openSource g.splitter source = .ok stream) (hpos : 0 ≤ stream.position)
    (settings : Settings) (journal : Array Event)
    : let run := entry.run settings source ⟨g, journal⟩
      (run.1 = .error (.nesting (chain 0).name stream.position)
          ∨ ∃ before fault, g.factory.newNode before = .error fault ∧ run.1 = .error fault)
        ∧ run.2.grammar = g ∧ effects run.2.journal = effects journal := by
  have hmatcher : Run.Throws g.sealed (Matcher.ofSettings settings (chain 0) stream)
      (fun fault => fault = .exhausted ∨ ∃ before, g.factory.newNode before = .error fault) :=
    Matcher.ofDepth_throws (g := g.sealed) hpos hchain settings.tracing _ 0
  rcases run_throws hrule (hmatcher.start hsource) journal
    with ⟨fault, after, hrun, ⟨inner, hinner, rfl⟩, hafter⟩
  intro run
  rw [show run = _ from hrun]
  refine ⟨?_, rfl, hafter.symm⟩
  by_cases hexhausted : inner = .exhausted
  . left
    rw [hexhausted]
    rfl
  . rcases hinner.resolve_left hexhausted with ⟨before, hnode⟩
    right
    exact ⟨before, inner, hnode, congrArg _ (Run.reported_of_ne hexhausted)⟩

/--
A rule that refers to itself before anything else.
-/
def loopRule : Rule where
  name := "loop"
  options := [["loop"]]

/--
A grammar of that rule whose factory makes numbers, which cannot serve as nodes.
-/
def unfit : Grammar where
  factory := .constant (.ok (.unfit "int"))
  rules := ⟨[loopRule]⟩

/--
The product of the factory is refused before the limit is used up, although the factory does not fail.
-/
theorem run_exhausts_unfit
    : (∀ before, unfit.factory.make before = .ok (.unfit "int")) ∧ first.rule? unfit.rules = .ok loopRule
      ∧ unfit.rules.FirstCalls loopRule loopRule
      ∧ (first.run {} (.stream ⟨#["a"], 0⟩) ⟨unfit, #[]⟩).1 = .error (.badProduct "int") :=
  ⟨fun _ => rfl, rfl, ⟨"loop", [], [], "loop", rfl, rfl, rfl⟩, rfl⟩

/--
A rule that refers to the next one, and has an option that would match a token.
-/
def ringRule (name next : String) : Rule where
  name := name
  options := [[next, "\"a"], ["\"b"]]
  action := some fun node _ => .done (.int node.items.length)

/--
The grammar of a rule from which there is a way to two others that refer to each other.
-/
def ring : Grammar where
  rules := ⟨[ringRule "outside" "north", ringRule "north" "south", ringRule "south" "north"]⟩

/--
The rules in the order in which they refer to one another.
-/
def aroundRing : Nat → Rule
  | 0 => ringRule "outside" "north"
  | place + 1 => if place % 2 = 0 then ringRule "north" "south" else ringRule "south" "north"

theorem firstCalls_aroundRing (place : Nat)
    : ring.rules.FirstCalls (aroundRing place) (aroundRing (place + 1)) := by
  cases place with
  | zero => exact ⟨"north", ["\"a"], [["\"b"]], "north", rfl, rfl, rfl⟩
  | succ place =>
    by_cases heven : place % 2 = 0
    . have hodd : ¬ (place + 1) % 2 = 0 := by omega
      rw [aroundRing, aroundRing, if_pos heven, if_neg hodd]
      exact ⟨"south", ["\"a"], [["\"b"]], "south", rfl, rfl, rfl⟩
    . have heven' : (place + 1) % 2 = 0 := by omega
      rw [aroundRing, aroundRing, if_neg heven, if_pos heven']
      exact ⟨"north", ["\"a"], [["\"b"]], "north", rfl, rfl, rfl⟩

theorem run_exhausts_ring
    : (first.run ⟨true, fun tokens => 5 + tokens⟩ (.stream ⟨#["a", "b"], 1⟩) ⟨ring, #[]⟩).1
        = .error (.nesting "outside" 1)
      ∧ effects (first.run ⟨true, fun tokens => 5 + tokens⟩ (.stream ⟨#["a", "b"], 1⟩)
          ⟨ring, #[]⟩).2.journal = [] := by
  have hrule : first.rule? ring.rules = .ok (aroundRing 0) := rfl
  have hsource : TokenStream.openSource ring.splitter (.stream ⟨#["a", "b"], 1⟩)
      = .ok ⟨#["a", "b"], 1⟩ := rfl
  have hpos : (0 : Int) ≤ 1 := by decide
  rcases run_exhausts firstCalls_aroundRing hrule hsource hpos ⟨true, fun tokens => 5 + tokens⟩ #[]
    with ⟨hanswer | ⟨before, fault, hnode, _⟩, _, hjournal⟩
  . exact ⟨hanswer, hjournal⟩
  . cases hnode

end Grammar.Entry
end TokenGrammar
