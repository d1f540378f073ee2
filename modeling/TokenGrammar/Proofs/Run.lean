import TokenGrammar.Matcher

/-!
This module contains the rules for statements about a run: it leaves the grammar as it is, and what it
returns or fails with has a property. There is one rule for each operation that runs are made of, so
proofs about the matcher need not open the monad.
-/

namespace TokenGrammar

/--
The grammar as it is while a run that was started on it is under way.
-/
def Grammar.sealed (g : Grammar) : Grammar := { g with running := g.running + 1 }

/--
The grammar as it is when a run that was started on it has ended.
-/
def Grammar.opened (g : Grammar) : Grammar := { g with running := g.running - 1 }

@[simp]
theorem Grammar.sealed_rules (g : Grammar) : g.sealed.rules = g.rules := rfl

@[simp]
theorem Grammar.sealed_running_ne_zero (g : Grammar) : g.sealed.running ≠ 0 := by
  simp [sealed]

/--
Induction on what a script does next. An action that the script hands over to be declared is no part
of what it does.
-/
theorem Script.induct {motive : Script → Prop} (done : ∀ result, motive (.done result))
    (fail : ∀ fault, motive (.fail fault))
    (declare : ∀ name options action next, (∀ answer, motive (next answer)) →
      motive (.declare name options action next))
    (parseAs : ∀ name source next, (∀ answer, motive (next answer)) →
      motive (.parseAs name source next))
    (names : ∀ next, (∀ names, motive (next names)) → motive (.names next))
    : ∀ script, motive script
  | .done result => done result
  | .fail fault => fail fault
  | .declare name options action next =>
    declare name options action next fun answer =>
      induct done fail declare parseAs names (next answer)
  | .parseAs name source next =>
    parseAs name source next fun answer => induct done fail declare parseAs names (next answer)
  | .names next => names next fun given => induct done fail declare parseAs names (next given)

namespace Run

variable {α β : Type}

theorem bind_apply (run : Run α) (f : α → Run β) (session : Session)
    : (run >>= f) session
        =
      match run session with
      | (.ok a, after) => f a after
      | (.error fault, after) => (.error fault, after) := by
  show (ExceptT.bind run f) session = _
  simp only [ExceptT.bind, ExceptT.mk, bind, StateT.bind]
  rcases run session with ⟨_ | _, _⟩
  . rfl
  . rfl

theorem grammar_apply (session : Session) : grammar session = (.ok session.grammar, session) := rfl

theorem sealing_apply (run : Run α) (g : Grammar) (journal : Array Event)
    : run.sealing ⟨g, journal⟩
        =
      ((run ⟨g.sealed, journal⟩).1,
        ⟨(run ⟨g.sealed, journal⟩).2.grammar.opened, (run ⟨g.sealed, journal⟩).2.journal⟩) := rfl

theorem outcome_apply (run : Run α) (session : Session)
    : run.outcome session = (.ok (run session).1, (run session).2) := rfl

theorem ofExcept_bind (answer : Except Fault α) (f : α → Except Fault β)
    : ofExcept (answer >>= f) = (do ofExcept (f (← ofExcept answer))) := by
  cases answer with
  | error fault => rfl
  | ok a => rfl

theorem exists_of_bind_eq_ok {answer : Except Fault α} {f : α → Except Fault β} {b : β}
    (h : answer >>= f = .ok b)
    : ∃ a, answer = .ok a ∧ f a = .ok b := by
  cases answer with
  | error fault => cases h
  | ok a => exact ⟨a, rfl, h⟩

theorem newNode_apply (g : Grammar) (journal : Array Event)
    : newNode ⟨g, journal⟩
        =
      (g.factory.newNode (Event.asks journal),
        ⟨g, journal.push (.asked (Event.asks journal + 1))⟩) := by
  show ofExcept (g.factory.newNode (Event.asks journal))
    ⟨g, journal.push (.asked (Event.asks journal + 1))⟩ = _
  cases g.factory.newNode (Event.asks journal) with
  | _ => rfl

theorem declare_of_running {g : Grammar} (hg : g.running ≠ 0) (name options : Value)
    (action : Callable Action) (journal : Array Event)
    : Grammar.declare name options action ⟨g, journal⟩
        =
      (.error (Grammar.refusal name), ⟨g, journal⟩) := by
  have hrunning : (g.running != 0) = true := by simpa using hg
  unfold Grammar.declare
  rw [bind_apply, grammar_apply]
  dsimp only
  rw [if_pos hrunning]
  rfl

theorem declare_of_open {g : Grammar} (hg : g.running = 0) (name options : Value)
    (action : Callable Action) (journal : Array Event)
    : Grammar.declare name options action ⟨g, journal⟩
        =
      Grammar.enter name options
        (match action with
          | .absent => g.defaultAction
          | action => action)
        ⟨g, journal⟩ := by
  have hrunning : ¬ (g.running != 0) = true := by simpa using hg
  unfold Grammar.declare
  rw [bind_apply, grammar_apply]
  dsimp only
  refine (congrFun (if_neg hrunning) (⟨g, journal⟩ : Session)).trans ?_
  rfl

/--
A rule with a new name comes behind the others, if there is no notice about it.
-/
theorem declare_new {g : Grammar} (hg : g.running = 0) {name options : Value} {action : Action}
    {rule : Rule} (hmake : Rule.make name options (.function action) = (none, .ok rule))
    (hnew : g.rules.names.contains rule.name = false) (journal : Array Event)
    : Grammar.declare name options (.function action) ⟨g, journal⟩
        =
      (.ok (), ⟨{ g with rules := ⟨g.rules.toList ++ [rule]⟩ }, journal⟩) := by
  rw [declare_of_open hg, ← RuleSet.insert_of_new hnew]
  unfold Grammar.enter
  rw [hmake]
  rfl

theorem perform_declare {g : Grammar} (hg : g.running ≠ 0) (matcher : Matcher) (name options : Value)
    (action : Callable Action) (next : Except Fault Unit → Script) (journal : Array Event)
    : perform matcher (.declare name options action next) ⟨g, journal⟩
        =
      perform matcher (next (.error (Grammar.refusal name))) ⟨g, journal⟩ := by
  rw [perform, bind_apply, outcome_apply, declare_of_running hg]

/--
Started with the given grammar the run leaves it as it is. What it returns satisfies `holds`, and an
error that it ends with satisfies `failing`.
-/
def Ensures (g : Grammar) (run : Run α) (holds : α → Prop) (failing : Fault → Prop) : Prop :=
  ∀ journal,
    (match (run ⟨g, journal⟩).1 with
      | .ok a => holds a
      | .error fault => failing fault)
    ∧ (run ⟨g, journal⟩).2.grammar = g

namespace Ensures

variable {g : Grammar} {holds : β → Prop} {failing : Fault → Prop}

theorem holds_of_ok {run : Run β} (h : Ensures g run holds failing) {journal : Array Event} {b : β}
    (hrun : (run ⟨g, journal⟩).1 = .ok b)
    : holds b := by
  have := (h journal).1
  rw [hrun] at this
  exact this

theorem failing_of_error {run : Run β} (h : Ensures g run holds failing) {journal : Array Event}
    {fault : Fault} (hrun : (run ⟨g, journal⟩).1 = .error fault)
    : failing fault := by
  have := (h journal).1
  rw [hrun] at this
  exact this

theorem mono {run : Run β} {holds' : β → Prop} {failing' : Fault → Prop}
    (h : Ensures g run holds' failing') (hholds : ∀ b, holds' b → holds b)
    (hfailing : ∀ fault, failing' fault → failing fault)
    : Ensures g run holds failing := by
  intro journal
  rcases h journal with ⟨hanswer, hgrammar⟩
  refine ⟨?_, hgrammar⟩
  split at hanswer
  . apply hholds
    exact hanswer
  . apply hfailing
    exact hanswer

theorem mono_holds {run : Run β} {holds' : β → Prop} (h : Ensures g run holds' failing)
    (hholds : ∀ b, holds' b → holds b)
    : Ensures g run holds failing :=
  h.mono hholds fun _ h => h

theorem mono_failing {run : Run β} {failing' : Fault → Prop} (h : Ensures g run holds failing')
    (hfailing : ∀ fault, failing' fault → failing fault)
    : Ensures g run holds failing :=
  h.mono (fun _ h => h) hfailing

theorem pure {b : β} (h : holds b) : Ensures g (pure b) holds failing := by
  intro journal
  exact ⟨h, rfl⟩

theorem throw {fault : Fault} (h : failing fault) : Ensures g (throw fault) holds failing := by
  intro journal
  exact ⟨h, rfl⟩

theorem bind {run : Run α} {f : α → Run β} {mid : α → Prop} (hrun : Ensures g run mid failing)
    (hok : ∀ a, mid a → Ensures g (f a) holds failing)
    : Ensures g (run >>= f) holds failing := by
  intro journal
  rw [bind_apply]
  have hmid := hrun journal
  rcases hresult : run ⟨g, journal⟩ with ⟨answer, session⟩
  rw [hresult] at hmid
  rcases hmid with ⟨hanswer, hgrammar⟩
  cases answer with
  | error fault => exact ⟨hanswer, hgrammar⟩
  | ok a =>
    -- the grammar is still `g`, so this is a session that the statement about `f a` covers
    rcases session with ⟨grammar, events⟩
    subst hgrammar
    exact hok a hanswer events

theorem grammar_bind {f : Grammar → Run β} (h : Ensures g (f g) holds failing)
    : Ensures g (Run.grammar >>= f) holds failing := by
  intro journal
  apply h

theorem note_bind {event : Event} {f : Unit → Run β} (h : Ensures g (f ()) holds failing)
    : Ensures g (note event >>= f) holds failing := by
  intro journal
  apply h

theorem trace_bind {tracing : Bool} {line : TraceLine} {f : Unit → Run β}
    (h : Ensures g (f ()) holds failing)
    : Ensures g (trace tracing line >>= f) holds failing := by
  intro journal
  cases tracing with
  | false => apply h
  | true => apply h

theorem ofExcept {answer : Except Fault β} (hok : ∀ b, answer = .ok b → holds b)
    (herror : ∀ fault, answer = .error fault → failing fault)
    : Ensures g (ofExcept answer) holds failing := by
  cases answer with
  | ok b => exact pure (hok b rfl)
  | error fault => exact throw (herror fault rfl)

theorem ofExcept_bind {answer : Except Fault α} {f : α → Run β}
    (hok : ∀ a, answer = .ok a → Ensures g (f a) holds failing)
    (herror : ∀ fault, answer = .error fault → failing fault)
    : Ensures g (Run.ofExcept answer >>= f) holds failing := by
  have hmid : Ensures g (Run.ofExcept answer) (fun a => answer = .ok a) failing := by
    apply ofExcept
    . simp
    . exact herror
  exact bind hmid hok

theorem newNode
    : Ensures g newNode (fun node => ∃ before, g.factory.newNode before = .ok node)
        (fun fault => ∃ before, g.factory.newNode before = .error fault) := by
  intro journal
  rw [newNode_apply]
  refine ⟨?_, rfl⟩
  split
  . next h => exact ⟨_, h⟩
  . next h => exact ⟨_, h⟩

theorem outcome_bind {run : Run α} {f : Except Fault α → Run β} {mid : α → Prop}
    {failing' : Fault → Prop} (hrun : Ensures g run mid failing')
    (hok : ∀ a, mid a → Ensures g (f (.ok a)) holds failing)
    (herror : ∀ fault, failing' fault → Ensures g (f (.error fault)) holds failing)
    : Ensures g (outcome run >>= f) holds failing := by
  intro journal
  have hmid := hrun journal
  rw [bind_apply, outcome_apply]
  rcases hresult : run ⟨g, journal⟩ with ⟨answer, session⟩
  rw [hresult] at hmid
  rcases hmid with ⟨hanswer, hgrammar⟩
  rcases session with ⟨grammar, events⟩
  subst hgrammar
  cases answer with
  | error fault => exact herror fault hanswer events
  | ok a => exact hok a hanswer events

theorem sealing {run : Run β} (h : Ensures g.sealed run holds failing)
    : Ensures g run.sealing holds failing := by
  intro journal
  rcases h journal with ⟨hanswer, hgrammar⟩
  rw [sealing_apply, hgrammar]
  exact ⟨hanswer, rfl⟩

end Ensures

end Run

namespace Matcher

variable {tracing : Bool} {matcher : Matcher} {rule : Rule} {attempt : Attempt} {element : String}
  {token : Option String}

theorem matchElement_terminal {terminal : Element} (hpeek : attempt.stream.peek 0 = .ok token)
    (hread : Element.read element = .ok terminal) (hterminal : ∀ name, terminal ≠ .reference name)
    : matchElement tracing matcher rule attempt element
        =
      (do
        Run.trace tracing (.tried rule.name element token)
        if terminal.accepts token then return some (← Run.ofExcept (attempt.consume token))
        else return none) := by
  unfold matchElement
  rw [hpeek, hread]
  cases terminal with
  | literal text => rfl
  | pattern regex => rfl
  | reference name => exact (hterminal name rfl).elim

theorem matchElement_reference {name : String} (hpeek : attempt.stream.peek 0 = .ok token)
    (hread : Element.read element = .ok (.reference name))
    : matchElement tracing matcher rule attempt element
        =
      (do
        Run.trace tracing (.tried rule.name element token)
        let target ← Run.ofExcept ((← Run.grammar).rules.lookup (.text name))
        match ← matcher target attempt.stream with
        | some found => return some (← Run.ofExcept (attempt.embed found))
        | none => return none) := by
  unfold matchElement
  rw [hpeek, hread]
  rfl

end Matcher
end TokenGrammar
