import TokenGrammar.Proofs.Lockstep

/-!
This module contains what actions do to a run that do not fail and do not call the grammar: nothing but
its result. Whatever actions the rules are given, the run recognises the same tokens by way of the same
calls, and its result is one and the same tree of matches, evaluated from the leaves up.
-/

namespace TokenGrammar

/--
An action for each rule. Without one the node is returned as it is.
-/
abbrev Assignment := String → Option (Node → Value)

namespace Assignment

/--
What the action of a rule returns for a node.
-/
def value (actions : Assignment) (rule : String) (node : Node) : Value :=
  match actions rule with
  | some f => f node
  | none => node.toValue

/--
Every rule returns its name with the items of the node.
-/
def labels : Assignment :=
  fun rule => some fun node => .tuple [.text rule, .list node.items]

end Assignment

def Rule.assigned (rule : Rule) (actions : Assignment) : Rule :=
  { rule with action := (actions rule.name).map fun f node _ => .done (f node) }

def Grammar.assigned (g : Grammar) (actions : Assignment) : Grammar :=
  { g with rules := ⟨g.rules.toList.map (·.assigned actions)⟩ }

/--
How a match was come to: tokens at the leaves, and at each vertex a rule that matched.
-/
inductive Tree where
  | leaf (token : String)
  | vertex (rule : String) (children : List Tree)

namespace Tree

/--
The tree written as a value: a token as a text, a vertex as the name of the rule with its children.
-/
def toValue : Tree → Value
  | leaf token => .text token
  | vertex rule children => .tuple [.text rule, .list (children.map toValue)]

/--
The value of a tree from the leaves up: the action of each vertex is applied to the list of the values of
its children.
-/
def fold (actions : Assignment) : Tree → Value
  | leaf token => .text token
  | vertex rule children => actions.value rule (.list (children.map (fold actions)))

theorem toValue_injective {tree tree' : Tree} (h : tree.toValue = tree'.toValue) : tree = tree' := by
  induction tree using toValue.induct generalizing tree' with
  | case1 token =>
    cases tree' with
    | leaf token' => simpa [toValue] using h
    | vertex rule' children' => simp [toValue] at h
  | case2 rule children ih =>
    cases tree' with
    | leaf token' => simp [toValue] at h
    | vertex rule' children' =>
      simp only [toValue, Value.tuple.injEq, List.cons.injEq, Value.text.injEq, Value.list.injEq] at h
      rcases h with ⟨rfl, hchildren, _⟩
      congr
      induction children generalizing children' with
      | nil => simpa using hchildren
      | cons child children ihchildren =>
        rcases List.map_eq_cons_iff.mp hchildren.symm with ⟨child', others, rfl, hchild, hothers⟩
        rw [ih child List.mem_cons_self hchild.symm]
        rw [ihchildren (fun other hother => ih other (List.mem_cons_of_mem _ hother)) others
          hothers.symm]

end Tree

/--
The names of the rules whose actions were called.
-/
def calls (journal : Array Event) : List String :=
  journal.toList.filterMap fun
    | .acted rule true => some rule
    | _ => none

theorem calls_push_traced (journal : Array Event) (line : TraceLine)
    : calls (journal.push (.traced line)) = calls journal := by
  simp [calls]

theorem calls_push_asked (journal : Array Event) (times : Nat)
    : calls (journal.push (.asked times)) = calls journal := by
  simp [calls]

theorem calls_push_acted (journal : Array Event) (rule : String) (given : Bool)
    : calls (journal.push (.acted rule given)) = calls journal ++ [rule].filter fun _ => given := by
  cases given with
  | false => simp [calls]
  | true => simp [calls]

def Assignment.acting (actions : Assignment) (rules : List String) : List String :=
  rules.filter fun rule => (actions rule).isSome

/--
After the same calls, matches of the same rules have been noted, of those that have an action.
-/
def CallsAfter (called : List String) (actions : Assignment) (journal labelled : Array Event)
    : Prop :=
  ∃ rules, calls journal = called ++ actions.acting rules ∧ calls labelled = called ++ rules

theorem CallsAfter.traced {called : List String} {actions : Assignment}
    {journal labelled : Array Event} (h : CallsAfter called actions journal labelled)
    (line : TraceLine)
    : CallsAfter called actions (journal.push (.traced line)) (labelled.push (.traced line)) := by
  unfold CallsAfter
  rw [calls_push_traced, calls_push_traced]
  exact h

theorem CallsAfter.asked {called : List String} {actions : Assignment}
    {journal labelled : Array Event} (h : CallsAfter called actions journal labelled)
    (times times' : Nat)
    : CallsAfter called actions (journal.push (.asked times)) (labelled.push (.asked times')) := by
  unfold CallsAfter
  rw [calls_push_asked, calls_push_asked]
  exact h

theorem CallsAfter.acted {called : List String} {actions : Assignment}
    {journal labelled : Array Event} (h : CallsAfter called actions journal labelled)
    (rule : String)
    : CallsAfter called actions (journal.push (.acted rule (actions rule).isSome))
        (labelled.push (.acted rule true)) := by
  rcases h with ⟨rules, hjournal, hlabelled⟩
  refine ⟨rules ++ [rule], ?_, ?_⟩
  . rw [calls_push_acted, hjournal]
    unfold Assignment.acting
    rw [List.filter_append, List.append_assoc]
    rfl
  . rw [calls_push_acted, hlabelled, List.append_assoc]
    rfl

/--
The values come of one tree, by the actions and as the tree itself.
-/
def Retraces (actions : Assignment) (value labelled : Value) : Prop :=
  ∃ tree : Tree, value = tree.fold actions ∧ labelled = tree.toValue

def Node.Retraces (actions : Assignment) (node labelled : Node) : Prop :=
  ∃ trees : List Tree, node = .list (trees.map (Tree.fold actions))
    ∧ labelled = .list (trees.map Tree.toValue)

variable {g : Grammar} {actions : Assignment}

theorem Rule.act_assigned (rule : Rule) (actions : Assignment) (node : Node)
    : (rule.assigned actions).act node = .done (actions.value rule.name node) := by
  unfold act assigned Assignment.value
  cases actions rule.name with
  | none => rfl
  | some f => rfl

theorem Rule.isSome_assigned (rule : Rule) (actions : Assignment)
    : (rule.assigned actions).action.isSome = (actions rule.name).isSome := by
  unfold assigned
  rw [Option.isSome_map]

theorem Grammar.find?_assigned (g : Grammar) (actions : Assignment) (name : String)
    : (g.assigned actions).rules.find? name = (g.rules.find? name).map (·.assigned actions) :=
  RuleSet.find?_map g.rules (·.assigned actions) (fun _ => rfl) name

theorem Grammar.names_assigned (g : Grammar) (actions : Assignment)
    : (g.assigned actions).rules.names = g.rules.names :=
  RuleSet.names_map g.rules (·.assigned actions) fun _ => rfl

namespace Matcher

variable {called : List String}

theorem agreement_assigned (hfactory : g.factory = .list) (tracing : Bool)
    : Agreement (g.assigned actions) (g.assigned .labels) tracing tracing
        (CallsAfter called actions) (Retraces actions) (Node.Retraces actions) where
  text := fun token => ⟨.leaf token, by rw [Tree.fold], by rw [Tree.toValue]⟩
  add := by
    rintro _ _ _ _ ⟨trees, rfl, rfl⟩ ⟨tree, rfl, rfl⟩
    rw [Node.add_list, Node.add_list]
    refine ⟨trees ++ [tree], ?_, ?_⟩
    . rw [List.map_append]
      rfl
    . rw [List.map_append]
      rfl
  newNode := by
    have hnode (actions : Assignment) (before : Nat)
        : (g.assigned actions).factory.newNode before = .ok (.list []) := by
      show g.factory.newNode before = _
      rw [hfactory]
      rfl
    apply Run.Parallels.newNode fun _ _ hjournals => hjournals.asked _ _
    intro journal labelled _
    rw [hnode, hnode]
    exact ⟨[], rfl, rfl⟩
  trace := fun line => Run.Parallels.trace tracing fun _ _ hjournals => hjournals.traced line

theorem act_assigned_parallels {matcher matcher' : Matcher} (rule : Rule) {node labelled : Node}
    (hnode : node.Retraces actions labelled)
    : Run.Parallels (g.assigned actions) (g.assigned .labels) (CallsAfter called actions)
        (Retraces actions) (Run.act matcher (rule.assigned actions) node)
        (Run.act matcher' (rule.assigned .labels) labelled) := by
  rcases hnode with ⟨trees, rfl, rfl⟩
  unfold Run.act
  rw [Rule.act_assigned, Rule.act_assigned, Rule.isSome_assigned, Rule.isSome_assigned]
  apply Run.Parallels.bind (Run.Parallels.note fun _ _ hjournals => hjournals.acted rule.name)
  intro _ _ _
  exact Run.Parallels.pure ⟨.vertex rule.name trees, by rw [Tree.fold], by rw [Tree.toValue]; rfl⟩

theorem ofDepth_assigned (hfactory : g.factory = .list) (tracing : Bool) (depth : Nat) (rule : Rule)
    (stream : TokenStream)
    : Run.Parallels (g.assigned actions) (g.assigned .labels) (CallsAfter called actions)
        (Option.Rel (Match.Related (Retraces actions)))
        (ofDepth tracing depth (rule.assigned actions) stream)
        (ofDepth tracing depth (rule.assigned .labels) stream) := by
  induction depth generalizing rule stream with
  | zero => exact Run.Parallels.throw .exhausted
  | succ depth ih =>
    have hname : (rule.assigned .labels).name = (rule.assigned actions).name := rfl
    show Run.Parallels _ _ _ _
      (matchOptions tracing (ofDepth tracing depth) (rule.assigned actions) stream rule.options)
      (matchOptions tracing (ofDepth tracing depth) (rule.assigned .labels) stream rule.options)
    apply matchOptions_parallels (agreement_assigned hfactory tracing) hname
    . intro _ _ _ _ name _
      unfold RefersAlike
      rw [Grammar.find?_assigned, Grammar.find?_assigned]
      cases g.rules.find? name with
      | none => exact .none
      | some target => exact .some (ih target)
    . intro node labelled hnode
      exact act_assigned_parallels rule hnode

end Matcher

namespace Grammar.Entry

theorem run_assigned (hfactory : g.factory = .list) (called : List String) (entry : Entry)
    (settings : Settings) (source : Source)
    : Run.Parallels (g.assigned actions) (g.assigned .labels) (CallsAfter called actions)
        (Option.Rel (Match.Related (Retraces actions))) (entry.run settings source)
        (entry.run settings source) := by
  have hsplitter : (g.assigned .labels).splitter = (g.assigned actions).splitter := rfl
  have hnames : (g.assigned .labels).rules.names = (g.assigned actions).rules.names := by
    rw [names_assigned, names_assigned]
  have hrules (name : String)
      : Option.Rel
          (fun given labelled => ∃ rule : Rule, given = rule.assigned actions
            ∧ labelled = rule.assigned .labels)
          ((g.assigned actions).rules.find? name) ((g.assigned .labels).rules.find? name) := by
    rw [find?_assigned, find?_assigned]
    cases g.rules.find? name with
    | none => exact .none
    | some rule => exact .some ⟨rule, rfl, rfl⟩
  have hsealed (actions : Assignment) : (g.assigned actions).sealed = g.sealed.assigned actions := rfl
  apply run_parallels hsplitter hnames hrules
  . rintro _ _ ⟨rule, rfl, rfl⟩
    rfl
  . rintro _ _ ⟨rule, rfl, rfl⟩ stream
    rw [hsealed, hsealed]
    exact Matcher.ofDepth_assigned (g := g.sealed) hfactory settings.tracing _ rule stream

/--
What a run comes to whatever the actions are, the error or the lack of a match included: tokens, and the
tree to be folded.
-/
abbrev Outcome := Except Fault (Option (List String × Tree))

/--
The answer of a run with that outcome, given the value of a tree.
-/
def Outcome.answer (outcome : Outcome) (value : Tree → Value) : Except Fault (Option Match) :=
  outcome.map (Option.map fun (tokens, tree) => ⟨tokens, value tree⟩)

theorem exists_outcome {answer labelled : Except Fault (Option Match)}
    (h : Run.Corresponds (Option.Rel (Match.Related (Retraces actions))) answer labelled)
    : ∃ outcome : Outcome, answer = outcome.answer (Tree.fold actions)
        ∧ labelled = outcome.answer Tree.toValue := by
  cases answer with
  | error fault =>
    cases labelled with
    | error fault' =>
      cases h
      exact ⟨.error fault, rfl, rfl⟩
    | ok found' => exact h.elim
  | ok found =>
    cases labelled with
    | error fault' => exact h.elim
    | ok found' =>
      cases h with
      | none => exact ⟨.ok none, rfl, rfl⟩
      | @some found found' h =>
        rcases found with ⟨tokens, result⟩
        rcases found' with ⟨tokens', result'⟩
        rcases h with ⟨rfl, tree, rfl, rfl⟩
        exact ⟨.ok (some (tokens, tree)), rfl, rfl⟩

theorem Outcome.answer_toValue_injective {outcome outcome' : Outcome}
    (h : outcome.answer Tree.toValue = outcome'.answer Tree.toValue)
    : outcome = outcome' := by
  have hpairs : Function.Injective
      (fun (tokens, tree) => ⟨tokens, tree.toValue⟩ : List String × Tree → Match) := by
    rintro ⟨tokens, tree⟩ ⟨tokens', tree'⟩ hpair
    simp only [Match.mk.injEq] at hpair
    rw [hpair.1, Tree.toValue_injective hpair.2]
  cases outcome with
  | error fault =>
    cases outcome' with
    | error fault' =>
      cases h
      rfl
    | ok found' => cases h
  | ok found =>
    cases outcome' with
    | error fault' => cases h
    | ok found' =>
      injection h with h
      rw [Option.map_injective hpairs h]

theorem exists_folds (hfactory : g.factory = .list) (actions : Assignment) (entry : Entry)
    (settings : Settings) (source : Source) (journal : Array Event)
    : ∃ (outcome : Outcome) (rules : List String),
        let (answer, after) := entry.run settings source ⟨g.assigned actions, journal⟩
        let (answer', after') := entry.run settings source ⟨g.assigned .labels, journal⟩
        answer = outcome.answer (Tree.fold actions) ∧ answer' = outcome.answer Tree.toValue
          ∧ calls after.journal = calls journal ++ actions.acting rules
          ∧ calls after'.journal = calls journal ++ rules := by
  have hbefore : CallsAfter (calls journal) actions journal journal :=
    ⟨[], by simp [Assignment.acting], by simp⟩
  rcases run_assigned hfactory (calls journal) entry settings source journal journal hbefore
    with ⟨hanswers, _, _, rules, hcalls, hcalls'⟩
  rcases exists_outcome hanswers with ⟨outcome, hanswer, hanswer'⟩
  exact ⟨outcome, rules, hanswer, hanswer', hcalls, hcalls'⟩

/--
With nodes that are lists and actions that neither fail nor call the grammar, all that a run comes to is
the same for every assignment of actions: the error, the lack of a match, or the tokens of the match, and
the rules whose actions are called, also on the way to what is dropped again. The result of a match is the
fold of one tree by the actions; and that tree is the result where the actions only label their nodes.
-/
theorem run_folds (hfactory : g.factory = .list) (entry : Entry) (settings : Settings) (source : Source)
    (journal : Array Event)
    : ∃ (outcome : Outcome) (rules : List String),
        (entry.run settings source ⟨g.assigned .labels, journal⟩).1 = outcome.answer Tree.toValue
        ∧ ∀ actions,
          let (answer, after) := entry.run settings source ⟨g.assigned actions, journal⟩
          answer = outcome.answer (Tree.fold actions)
          ∧ calls after.journal = calls journal ++ actions.acting rules := by
  rcases exists_folds hfactory .labels entry settings source journal
    with ⟨outcome, rules, _, hlabelled, _, hcalled⟩
  refine ⟨outcome, rules, hlabelled, fun actions => ?_⟩
  rcases exists_folds hfactory actions entry settings source journal
    with ⟨outcome', rules', hanswer, hlabelled', hcalls, hcalled'⟩
  rw [hlabelled] at hlabelled'
  rw [hcalled] at hcalled'
  rw [Outcome.answer_toValue_injective hlabelled', List.append_cancel_left hcalled']
  exact ⟨hanswer, hcalls⟩

/--
A grammar of texts with as many closing tokens as opening ones. Its first option is tried in vain behind
the innermost opening token, so a run calls the action of the marks also for what is dropped again.
-/
def balanced : Grammar where
  rules := ⟨[
    { name := "pair", options := [["open", "pair", "close"], ["open", "close"]] },
    { name := "open", options := [["\"("]] },
    { name := "close", options := [["\")"]] }]⟩

theorem run_folds_balanced
    : (∃ (outcome : Outcome) (rules : List String),
        (first.run {} (.stream ⟨#["(", "(", ")", ")"], 0⟩) ⟨balanced.assigned .labels, #[]⟩).1
          = outcome.answer Tree.toValue
        ∧ ∀ actions,
          let (answer, after) :=
            first.run {} (.stream ⟨#["(", "(", ")", ")"], 0⟩) ⟨balanced.assigned actions, #[]⟩
          answer = outcome.answer (Tree.fold actions)
          ∧ calls after.journal = calls #[] ++ actions.acting rules)
      ∧ calls (first.run {} (.stream ⟨#["(", "(", ")", ")"], 0⟩)
          ⟨balanced.assigned .labels, #[]⟩).2.journal
        = ["open", "open", "open", "close", "pair", "close", "pair"] :=
  ⟨run_folds rfl first {} (.stream ⟨#["(", "(", ")", ")"], 0⟩) #[], by decide +kernel⟩

end Grammar.Entry
end TokenGrammar
