import TokenGrammar.Proofs.Lockstep

/-!
This module contains grammars that do the same: they have rules of the same names in the same order, with
the same options and with actions that do the same with every node. Whether a rule was given its action
or has it by default makes no difference, and neither does the number of runs that are under way or what
the journal holds, provided that the node factory does what it did for the other grammar.
-/

namespace TokenGrammar

/--
The rules have the same name and the same options, and they do the same with the node of a match.
-/
structure Rule.Equivalent (rule rule' : Rule) : Prop where
  name : rule'.name = rule.name
  options : rule'.options = rule.options
  act : ∀ node, rule'.act node = rule.act node

/--
The grammars have equivalent rules in the same order, and they make nodes and split texts alike.
-/
structure Grammar.Equivalent (g g' : Grammar) : Prop where
  factory : g'.factory = g.factory
  splitter : g'.splitter = g.splitter
  names : g'.rules.names = g.rules.names
  rules : ∀ name, Option.Rel Rule.Equivalent (g.rules.find? name) (g'.rules.find? name)

theorem Rule.Equivalent.refl (rule : Rule) : rule.Equivalent rule := ⟨rfl, rfl, fun _ => rfl⟩

theorem Grammar.Equivalent.sealed {g g' : Grammar} (h : g.Equivalent g')
    : g.sealed.Equivalent g'.sealed :=
  ⟨h.factory, h.splitter, h.names, h.rules⟩

theorem Grammar.Equivalent.refl (g : Grammar) : g.Equivalent g where
  factory := rfl
  splitter := rfl
  names := rfl
  rules := by
    intro name
    cases g.rules.find? name with
    | none => exact .none
    | some rule => exact .some (.refl rule)

/--
The node factory has been asked equally often according to the journals, or it does the same each time.
-/
def NodeFactory.SameAfter (factory : NodeFactory) (journal journal' : Array Event) : Prop :=
  Event.asks journal' = Event.asks journal ∨ factory.Uniform

namespace NodeFactory.SameAfter

variable {factory : NodeFactory} {journal journal' : Array Event}

theorem newNode_eq (h : factory.SameAfter journal journal')
    : factory.newNode (Event.asks journal') = factory.newNode (Event.asks journal) := by
  cases h with
  | inl hasks => rw [hasks]
  | inr huniform => exact huniform.newNode_eq _ _

theorem push (h : factory.SameAfter journal journal') (event : Event)
    : factory.SameAfter (journal.push event) (journal'.push event) := by
  apply h.imp_left
  intro hasks
  cases event with
  | asked times => rw [Event.asks_push_asked, Event.asks_push_asked]
  | _ => rw [Event.asks_push rfl, Event.asks_push rfl, hasks]

theorem push_others {event event' : Event} (h : factory.SameAfter journal journal')
    (hevent : event.asked? = none) (hevent' : event'.asked? = none)
    : factory.SameAfter (journal.push event) (journal'.push event') := by
  unfold SameAfter
  rw [Event.asks_push hevent, Event.asks_push hevent']
  exact h

theorem asked (h : factory.SameAfter journal journal')
    : factory.SameAfter (journal.push (.asked (Event.asks journal + 1)))
        (journal'.push (.asked (Event.asks journal' + 1))) := by
  apply h.imp_left
  intro hasks
  rw [Event.asks_push_asked, Event.asks_push_asked, hasks]

end NodeFactory.SameAfter

section

variable {g g' : Grammar} {rule rule' : Rule}

theorem Run.act_equivalent {matcher matcher' : Matcher} (h : g.Equivalent g') (hg : g.running ≠ 0)
    (hg' : g'.running ≠ 0)
    (htargets : ∀ name,
      Matcher.RefersAlike g.sealed g'.sealed g.factory.SameAfter Eq matcher matcher' name)
    (hrule : rule.Equivalent rule') (node : Node)
    : Parallels g g' g.factory.SameAfter Eq (act matcher rule node) (act matcher' rule' node) := by
  unfold act
  rw [hrule.act]
  apply Parallels.bind (Parallels.note fun _ _ hjournals => hjournals.push_others rfl rfl)
  intro _ _ _
  exact perform_parallels hg hg' h.splitter h.names htargets (rule.act node)

-- the runs that an action starts are matched with what is left of the depth, so the induction is for
-- all grammars, those in which more runs are under way among them
theorem Matcher.ofDepth_equivalent (tracing : Bool) (depth : Nat) (h : g.Equivalent g')
    (hg : g.running ≠ 0) (hg' : g'.running ≠ 0) (hrule : rule.Equivalent rule') (stream : TokenStream)
    : Run.Parallels g g' g.factory.SameAfter (Option.Rel (Match.Related Eq))
        (ofDepth tracing depth rule stream) (ofDepth tracing depth rule' stream) := by
  induction depth generalizing g g' rule rule' stream with
  | zero => exact Run.Parallels.throw .exhausted
  | succ depth ih =>
    have htargets {g g' : Grammar} (h : g.Equivalent g') (hg : g.running ≠ 0) (hg' : g'.running ≠ 0)
        (name : String)
        : RefersAlike g g' g.factory.SameAfter Eq (ofDepth tracing depth) (ofDepth tracing depth) name := by
      apply refersAlike_of_rel (h.rules name)
      intro target target' _ _ htarget there
      exact ih h hg hg' htarget there
    unfold ofDepth
    rw [hrule.options]
    have hnode : Run.Parallels g g' g.factory.SameAfter Eq Run.newNode Run.newNode := by
      apply Run.Parallels.newNode fun _ _ hjournals => hjournals.asked
      intro journal journal' hjournals
      rw [h.factory, hjournals.newNode_eq]
      exact .refl fun _ _ => rfl
    have hagreement : Agreement g g' tracing tracing g.factory.SameAfter Eq Eq :=
      agreement_of_newNode (fun line _ _ hjournals => hjournals.push (.traced line)) hnode
    apply matchOptions_parallels hagreement hrule.name
    . intro _ _ _ _ name _
      exact htargets h hg hg' name
    . rintro node _ rfl
      apply Run.act_equivalent h hg hg' _ hrule
      exact htargets h.sealed g.sealed_running_ne_zero g'.sealed_running_ne_zero

/--
Runs of equivalent grammars have the same answer, if the node factory does the same for them.
-/
theorem Grammar.Entry.run_equivalent (h : g.Equivalent g') (entry : Entry) (settings : Settings)
    (source : Source) {journal journal' : Array Event} (hsame : g.factory.SameAfter journal journal')
    : (entry.run settings source ⟨g', journal'⟩).1 = (entry.run settings source ⟨g, journal⟩).1 := by
  have hruns : Run.Parallels g g' g.factory.SameAfter (Option.Rel (Match.Related Eq))
      (entry.run settings source) (entry.run settings source) := by
    apply run_parallels h.splitter h.names h.rules (fun _ _ hrule => hrule.name)
    intro rule rule' hrule stream
    exact Matcher.ofDepth_equivalent settings.tracing _ h.sealed g.sealed_running_ne_zero
      g'.sealed_running_ne_zero hrule stream
  rcases hruns journal journal' hsame with ⟨hanswers, _⟩
  exact (hanswers.mono fun _ _ => Match.eq_of_related).eq.symm

end
end TokenGrammar
