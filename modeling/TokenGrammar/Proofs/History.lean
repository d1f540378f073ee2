import TokenGrammar.Proofs.Entry

/-!
This module contains rule sets over time. Calls that declare rules are made one after another while no
run is under way, and any of them may fail. What the rule set is afterwards is said in terms of the
calls that succeeded: which names there are and in which order, and which rule each of them has. A
grammar that is made from a mapping has the same history as one that is made without rules and gets
the entries of the mapping one by one.
-/

namespace TokenGrammar

/--
The value writes the options: a text is a single option, a list or a tuple of texts has one for each.
-/
inductive Value.Spells : Value → List String → Prop where
  | text (option : String) : Spells (.text option) [option]
  | list (options : List String) : Spells (.list (options.map .text)) options
  | tuple (options : List String) : Spells (.tuple (options.map .text)) options

theorem Value.mapM_text? {items : List Value} {texts : List String}
    : items.mapM Value.text? = some texts ↔ items = texts.map .text := by
  induction items generalizing texts with
  | nil =>
    cases texts with
    | _ => simp
  | cons item items ih =>
    rw [List.mapM_cons]
    cases item with
    | text text =>
      cases texts with
      | nil => simp [text?, Option.bind_eq_some_iff]
      | cons other others => simpa [text?, Option.bind_eq_some_iff, ih] using and_comm
    | _ =>
      cases texts with
      | _ => simp [text?]

/--
A call that declares a rule.
-/
structure Declaration where
  name : Value
  options : Value
  action : Callable Action := .absent

namespace Declaration

/--
Make the call.
-/
def attempt (call : Declaration) : Run Unit :=
  Grammar.declare call.name call.options call.action

/--
What has become of calls: those that succeeded, and the session after all of them.
-/
structure History where
  succeeded : List Declaration
  session : Session

/--
Make calls one after another, whatever becomes of each of them.
-/
def attemptAll : List Declaration → Session → History
  | [], session => ⟨[], session⟩
  | call :: calls, session =>
    match call.attempt session with
    | (.ok (), after) =>
      let history := attemptAll calls after
      { history with succeeded := call :: history.succeeded }
    | (.error _, after) => attemptAll calls after

/--
Declare the entries of a mapping one after another, up to the first that fails.
-/
def attemptEntries (entries : List (Value × Value)) : Run Unit :=
  forM entries fun entry => attempt ⟨entry.1, entry.2, .absent⟩

/--
The action for the rule of a call: the one that is given, else the default, else the one that returns
the node. There is none if what is there cannot be called.
-/
def action? (call : Declaration) (fallback : Callable Action) : Option Action :=
  match call.action, fallback with
  | .function action, _ => some action
  | .absent, .function action => some action
  | .absent, .absent => some Action.identity
  | _, _ => none

/--
The rule is the one that the call is about.
-/
structure Declares (call : Declaration) (fallback : Callable Action) (rule : Rule) : Prop where
  name : call.name = .text rule.name
  nonempty : rule.name ≠ ""
  written : call.options.Spells rule.written
  options : rule.options = rule.written.map Text.words
  action : ∃ action, call.action? fallback = some action
    ∧ ∀ node, rule.act node = action node rule.name

/--
The names that calls declare, a name for each call.
-/
def names (calls : List Declaration) : List String :=
  calls.filterMap fun call => call.name.text?

end Declaration

namespace Rule

theorem readName_eq_ok_iff {given : Value} {name : String}
    : readName given = .ok name ↔ given = .text name ∧ name ≠ "" := by
  cases given with
  | text text =>
    unfold readName
    simp only [String.isEmpty_iff]
    split
    . next hempty => simp_all
    . next hempty =>
      constructor
      . rintro ⟨⟩
        exact ⟨rfl, hempty⟩
      . rintro ⟨⟨⟩, _⟩
        rfl
  | _ => simp [readName]

theorem readOptions_eq_ok_iff {rule : String} {given : Value} {written : List String}
    : readOptions rule given = .ok written ↔ given.Spells written := by
  constructor
  . intro h
    unfold readOptions at h
    split at h
    . cases h
      exact .text _
    . split at h
      . next hread =>
        cases h
        rw [Value.mapM_text?.mp hread]
        exact .list written
      . cases h
    . split at h
      . next hread =>
        cases h
        rw [Value.mapM_text?.mp hread]
        exact .tuple written
      . cases h
    . cases h
  . intro h
    cases h with
    | text option => rfl
    | list options =>
      simp only [readOptions]
      rw [Value.mapM_text?.mpr rfl]
    | tuple options =>
      simp only [readOptions]
      rw [Value.mapM_text?.mpr rfl]

theorem readName_of_nonempty {name : String} (h : name ≠ "") : readName (.text name) = .ok name :=
  readName_eq_ok_iff.mpr ⟨rfl, h⟩

end Rule

namespace Declaration

variable {call : Declaration} {fallback : Callable Action}

/--
What is handed over as the action of the rule of a call.
-/
def given (call : Declaration) (fallback : Callable Action) : Callable Action :=
  match call.action with
  | .absent => fallback
  | action => action

theorem withAction_given {rule rule' : Rule}
    (h : rule.withAction (call.given fallback) = .ok rule')
    : ∃ held, call.action? fallback = some (held.getD Action.identity)
      ∧ rule' = { rule with action := held } := by
  unfold given at h
  unfold action?
  cases haction : call.action with
  | function action =>
    rw [haction] at h
    cases h
    exact ⟨some action, rfl, rfl⟩
  | unfit value =>
    rw [haction] at h
    cases h
  | absent =>
    rw [haction] at h
    cases fallback with
    | function action =>
      cases h
      exact ⟨some action, rfl, rfl⟩
    | unfit value => cases h
    | absent =>
      cases h
      exact ⟨none, rfl, rfl⟩

theorem exists_withAction {action : Action} (h : call.action? fallback = some action) (rule : Rule)
    : ∃ rule', rule.withAction (call.given fallback) = .ok rule' := by
  unfold given
  unfold action? at h
  cases haction : call.action with
  | function action => exact ⟨_, rfl⟩
  | unfit value =>
    rw [haction] at h
    cases h
  | absent =>
    rw [haction] at h
    cases fallback with
    | unfit value => cases h
    | _ => exact ⟨_, rfl⟩

theorem declares_of_make {rule : Rule}
    (h : (Rule.make call.name call.options (call.given fallback)).2 = .ok rule)
    : call.Declares fallback rule := by
  unfold Rule.make at h
  split at h
  . cases h
  . next name hname =>
    unfold Rule.withOptions at h
    cases hwritten : Rule.readOptions name call.options with
    | error fault =>
      simp only [hwritten] at h
      cases h
    | ok written =>
      simp only [hwritten] at h
      rcases Rule.readName_eq_ok_iff.mp hname with ⟨hname, hnonempty⟩
      rcases withAction_given h with ⟨held, haction, rfl⟩
      exact ⟨hname, hnonempty, Rule.readOptions_eq_ok_iff.mp hwritten, rfl, _, haction, fun _ => rfl⟩

theorem Declares.exists_make {rule : Rule} (h : call.Declares fallback rule)
    : ∃ rule', (Rule.make call.name call.options (call.given fallback)).2 = .ok rule' := by
  rcases h.action with ⟨action, haction, _⟩
  unfold Rule.make Rule.withOptions
  rw [h.name, Rule.readName_of_nonempty h.nonempty]
  simp only [Rule.readOptions_eq_ok_iff.mpr h.written]
  exact exists_withAction haction _

end Declaration

namespace Grammar

variable {g : Grammar} {name options : Value} {action : Callable Action}

theorem enter_of_ok {rule : Rule} (h : (Rule.make name options action).2 = .ok rule)
    (journal : Array Event)
    : ∃ after, enter name options action ⟨g, journal⟩
        =
      (.ok (), ⟨{ g with rules := g.rules.insert rule }, after⟩) := by
  unfold enter
  rcases hmake : Rule.make name options action with ⟨warning, answer⟩
  rw [hmake] at h
  cases h
  cases warning with
  | none => exact ⟨_, rfl⟩
  | some warning => exact ⟨_, rfl⟩

theorem enter_of_error {fault : Fault} (h : (Rule.make name options action).2 = .error fault)
    (journal : Array Event)
    : ∃ after, enter name options action ⟨g, journal⟩ = (.error fault, ⟨g, after⟩) := by
  unfold enter
  rcases hmake : Rule.make name options action with ⟨warning, answer⟩
  rw [hmake] at h
  cases h
  cases warning with
  | none => exact ⟨_, rfl⟩
  | some warning => exact ⟨_, rfl⟩

end Grammar

namespace Declaration

theorem attempt_of_open {g : Grammar} (hg : g.running = 0) (call : Declaration)
    (journal : Array Event)
    : call.attempt ⟨g, journal⟩
        =
      Grammar.enter call.name call.options (call.given g.defaultAction) ⟨g, journal⟩ :=
  Run.declare_of_open hg call.name call.options call.action journal

/--
A call succeeds if there is a rule that it is about, and such a rule is put into the rule set. Otherwise
it fails, and nothing but the journal is changed.
-/
theorem attempt_cases {g : Grammar} (hg : g.running = 0) (call : Declaration)
    (journal : Array Event)
    : (∃ rule after, call.Declares g.defaultAction rule
        ∧ call.attempt ⟨g, journal⟩ = (.ok (), ⟨{ g with rules := g.rules.insert rule }, after⟩))
      ∨ ∃ fault after, (∀ rule, ¬ call.Declares g.defaultAction rule)
        ∧ call.attempt ⟨g, journal⟩ = (.error fault, ⟨g, after⟩) := by
  rw [attempt_of_open hg]
  cases hmake : (Rule.make call.name call.options (call.given g.defaultAction)).2 with
  | ok rule =>
    left
    rcases Grammar.enter_of_ok hmake journal with ⟨after, henter⟩
    exact ⟨rule, after, declares_of_make hmake, henter⟩
  | error fault =>
    right
    rcases Grammar.enter_of_error hmake journal with ⟨after, henter⟩
    refine ⟨fault, after, ?_, henter⟩
    intro rule hdeclares
    rcases hdeclares.exists_make with ⟨rule', hrule'⟩
    rw [hmake] at hrule'
    cases hrule'

end Declaration

namespace RuleSet

theorem names_insert_of_not_mem {rules : RuleSet} {rule : Rule} (h : rule.name ∉ rules.names)
    : (rules.insert rule).names = rules.names ++ [rule.name] := by
  rw [insert_of_new (by simpa using h)]
  simp [names]

/--
What a rule set is after calls that succeeded, where it was `before` at first: the names are listed in
the order in which they were first declared, and the last call for a name tells what rule it has.
-/
structure Reflects (rules before : RuleSet) (fallback : Callable Action)
    (succeeded : List Declaration) : Prop where
  names : rules.names
      =
    before.names ++ ((Declaration.names succeeded).filter (· ∉ before.names)).eraseDups
  latest : ∀ earlier call later, succeeded = earlier ++ call :: later →
    (∀ other ∈ later, other.name ≠ call.name) →
      ∃ rule, rules.find? rule.name = some rule ∧ call.Declares fallback rule
  untouched : ∀ name, (∀ call ∈ succeeded, call.name ≠ .text name) →
    rules.find? name = before.find? name

theorem Reflects.nil (rules : RuleSet) (fallback : Callable Action)
    : rules.Reflects rules fallback [] where
  names := by simp [Declaration.names]
  latest := by simp
  untouched _ _ := rfl

theorem names_history {before : RuleSet} {rule : Rule} (names : List String)
    : (before.insert rule).names ++ (names.filter (· ∉ (before.insert rule).names)).eraseDups
        =
      before.names ++ ((rule.name :: names).filter (· ∉ before.names)).eraseDups := by
  by_cases hmem : rule.name ∈ before.names
  . rw [names_insert_of_mem hmem, List.filter_cons_of_neg (by simpa using hmem)]
  . rw [names_insert_of_not_mem hmem, List.filter_cons_of_pos (by simpa using hmem),
      List.eraseDups_cons, List.filter_filter, List.append_assoc, List.singleton_append]
    congr 3
    apply List.filter_congr
    intro name _
    rw [Bool.eq_iff_iff]
    simp [and_comm]

theorem Reflects.cons {rules before : RuleSet} {fallback : Callable Action} {rule : Rule}
    {call : Declaration} {succeeded : List Declaration} (hcall : call.Declares fallback rule)
    (h : rules.Reflects (before.insert rule) fallback succeeded)
    : rules.Reflects before fallback (call :: succeeded) where
  names := by
    have hnames : Declaration.names (call :: succeeded) = rule.name :: Declaration.names succeeded := by
      simp [Declaration.names, hcall.name, Value.text?]
    rw [h.names, hnames, names_history]
  latest := by
    intro earlier last later heq hlater
    cases earlier with
    | nil =>
      cases heq
      refine ⟨rule, ?_, hcall⟩
      rw [h.untouched rule.name, find?_insert, if_pos rfl]
      rw [← hcall.name]
      exact hlater
    | cons other earlier =>
      cases heq
      exact h.latest earlier last later rfl hlater
  untouched := by
    intro name hname
    simp only [List.mem_cons, forall_eq_or_imp] at hname
    rcases hname with ⟨hfirst, hrest⟩
    rw [h.untouched name hrest, find?_insert, if_neg]
    rintro rfl
    exact hfirst hcall.name

end RuleSet

namespace Declaration

theorem attemptAll_reflected {g : Grammar} (hg : g.running = 0) (calls : List Declaration)
    (journal : Array Event)
    : let history := attemptAll calls ⟨g, journal⟩
      history.session.grammar = { g with rules := history.session.grammar.rules }
      ∧ history.session.grammar.rules.Reflects g.rules g.defaultAction history.succeeded := by
  -- the later calls start from the rule set with the first rule in it, so the induction is for any one
  induction calls generalizing g journal with
  | nil => exact ⟨rfl, .nil g.rules g.defaultAction⟩
  | cons call calls ih =>
    unfold attemptAll
    rcases attempt_cases hg call journal with ⟨rule, after, hcall, hattempt⟩ | ⟨fault, after, _, hattempt⟩
    . rw [hattempt]
      have hlater := @ih { g with rules := g.rules.insert rule } hg after
      exact ⟨hlater.1, .cons hcall hlater.2⟩
    . rw [hattempt]
      exact ih hg after

end Declaration

namespace RuleSet

theorem Reflects.head?_names {rules before : RuleSet} {fallback : Callable Action}
    {succeeded : List Declaration} (h : rules.Reflects before fallback succeeded)
    : rules.names.head? = (before.names ++ Declaration.names succeeded).head? := by
  rw [h.names]
  cases before.names with
  | cons name names => rfl
  | nil =>
    cases Declaration.names succeeded with
    | nil => rfl
    | cons name names => simp [List.eraseDups_cons]

end RuleSet

namespace Grammar

theorem Entry.rule?_first {rules : RuleSet} {name : String} (h : rules.names.head? = some name)
    : first.rule? rules = (named (.text name)).rule? rules := by
  unfold RuleSet.names at h
  unfold rule?
  dsimp only
  rw [RuleSet.lookup_text, RuleSet.find?]
  cases hrules : rules.toList with
  | nil =>
    rw [hrules] at h
    cases h
  | cons rule others =>
    rw [hrules] at h
    cases h
    simp

theorem parse_eq_parseAs {session : Session} {name : String}
    (h : session.grammar.rules.names.head? = some name) (settings : Settings) (source : Source)
    : parse settings source session = parseAs settings (.text name) source session := by
  show Entry.first.run settings source session
    = (Entry.named (.text name)).run settings source session
  rw [Entry.run_eq, Entry.run_eq, Run.bind_apply, Run.bind_apply, Run.grammar_apply]
  dsimp only
  rw [Entry.rule?_first h]

theorem enterAll_eq {g : Grammar} (hg : g.running = 0) (entries : List (Value × Value))
    (journal : Array Event)
    : enterAll entries ⟨g, journal⟩
        =
      Declaration.attemptEntries entries ⟨g, journal⟩ := by
  induction entries generalizing g journal with
  | nil => rfl
  | cons entry entries ih =>
    have hentry : enter entry.1 entry.2 g.defaultAction ⟨g, journal⟩
        = Declaration.attempt ⟨entry.1, entry.2, .absent⟩ ⟨g, journal⟩ :=
      (Declaration.attempt_of_open hg ⟨entry.1, entry.2, .absent⟩ journal).symm
    unfold Declaration.attemptEntries
    rw [enterAll, List.forM_cons, Run.bind_apply, Run.grammar_apply]
    dsimp only
    rw [Run.bind_apply, Run.bind_apply, hentry]
    rcases Declaration.attempt_cases hg ⟨entry.1, entry.2, .absent⟩ journal with
      ⟨rule, after, _, hattempt⟩ | ⟨fault, after, _, hattempt⟩
    . rw [hattempt]
      exact @ih { g with rules := g.rules.insert rule } hg after
    . rw [hattempt]

/--
A grammar from a mapping is a grammar without rules whose rules are declared one by one.
-/
theorem create_mapping (entries : List (Value × Value)) (factory : Callable NodeFactory)
    (fallback : Callable Action) (splitter : Callable Splitter)
    : let empty := create .absent factory fallback splitter
      let full := create (.mapping entries) factory fallback splitter
      (∀ fault, empty.1 = .error fault → full = empty)
      ∧ ∀ g, empty.1 = .ok g →
          let built := Declaration.attemptEntries entries ⟨g, empty.2⟩
          full = (built.1.map fun _ => built.2.grammar, built.2.journal) := by
  have hbuild (g : Grammar) (hg : g.running = 0)
      : let run := (enterAll entries >>= fun _ => Run.grammar) ⟨g, #[]⟩
        let built := Declaration.attemptEntries entries ⟨g, #[]⟩
        (run.1, run.2.journal) = (built.1.map fun _ => built.2.grammar, built.2.journal) := by
    rw [Run.bind_apply, enterAll_eq hg]
    rcases Declaration.attemptEntries entries ⟨g, #[]⟩ with ⟨_ | _, after⟩
    . rfl
    . rfl
  intro empty full
  constructor
  . intro fault hempty
    cases factory with
    | unfit value => rfl
    | _ =>
      cases fallback with
      | unfit value => rfl
      | _ => cases hempty
  . intro g hempty
    cases factory with
    | unfit value => cases hempty
    | _ =>
      cases fallback with
      | unfit value => cases hempty
      | _ =>
        cases hempty
        exact hbuild _ rfl

/--
The history of a rule set while no run is under way. A call succeeds just if there is a rule that it is
about, and otherwise the grammar stays as it is. After any calls the names stand in the order in which
they were first declared, each with the rule of its last successful call, and a run that is started
without a name begins at the first name of all. A mapping of rules is declared entry by entry, with the
same grammar, the same notices, and the same error at the first entry that fails.
-/
theorem rules_of_declarations {g : Grammar} (hg : g.running = 0) (journal : Array Event)
    : (∀ call : Declaration,
        let attempted := call.attempt ⟨g, journal⟩
        (attempted.1 = .ok () ↔ ∃ rule, call.Declares g.defaultAction rule)
        ∧ ∀ fault, attempted.1 = .error fault → attempted.2.grammar = g)
      ∧ (∀ calls : List Declaration,
          let history := Declaration.attemptAll calls ⟨g, journal⟩
          let after := history.session
          after.grammar = { g with rules := after.grammar.rules }
          ∧ after.grammar.rules.Reflects g.rules g.defaultAction history.succeeded
          ∧ ∀ name, (g.rules.names ++ Declaration.names history.succeeded).head? = some name →
              ∀ settings source,
                parse settings source after = parseAs settings (.text name) source after)
      ∧ ∀ entries factory fallback splitter,
          let empty := create .absent factory fallback splitter
          let full := create (.mapping entries) factory fallback splitter
          (∀ fault, empty.1 = .error fault → full = empty)
          ∧ ∀ g, empty.1 = .ok g →
              let built := Declaration.attemptEntries entries ⟨g, empty.2⟩
              full = (built.1.map fun _ => built.2.grammar, built.2.journal) := by
  refine ⟨?_, ?_, create_mapping⟩
  . intro call
    rcases Declaration.attempt_cases hg call journal with
      ⟨rule, after, hcall, hattempt⟩ | ⟨fault, after, hnone, hattempt⟩
    . rw [hattempt]
      exact ⟨⟨fun _ => ⟨rule, hcall⟩, fun _ => rfl⟩, nofun⟩
    . rw [hattempt]
      refine ⟨⟨nofun, ?_⟩, fun _ _ => rfl⟩
      intro hsome
      rcases hsome with ⟨rule, hrule⟩
      exact (hnone rule hrule).elim
  . intro calls
    rcases Declaration.attemptAll_reflected hg calls journal with ⟨hkept, hreflects⟩
    refine ⟨hkept, hreflects, ?_⟩
    intro name hname settings source
    apply parse_eq_parseAs
    rw [hreflects.head?_names, hname]

/--
Calls that declare a rule, another one, and the first one anew. Two calls in between fail.
-/
def replacing : List Declaration :=
  [⟨.text "s", .text "\"a", .absent⟩, ⟨.text "", .text "\"a", .absent⟩,
    ⟨.text "t", .tuple [.text "", .text "\"b"], .absent⟩, ⟨.text "s", .text "\"c", .unfit .null⟩,
    ⟨.text "s", .list [.text "\"d t"], .absent⟩]

theorem rules_of_declarations_replacing
    : Declaration.names (Declaration.attemptAll replacing ⟨{}, #[]⟩).succeeded = ["s", "t", "s"]
      ∧ (Declaration.attemptAll replacing ⟨{}, #[]⟩).session.grammar.rules.names = ["s", "t"]
      ∧ parse {} (.stream ⟨#["d"], 0⟩) (Declaration.attemptAll replacing ⟨{}, #[]⟩).session
        = parseAs {} (.text "s") (.stream ⟨#["d"], 0⟩)
            (Declaration.attemptAll replacing ⟨{}, #[]⟩).session := by
  have hsucceeded : Declaration.names (Declaration.attemptAll replacing ⟨{}, #[]⟩).succeeded
      = ["s", "t", "s"] := by decide +kernel
  have hempty : ({} : Grammar).rules.names = [] := rfl
  rcases rules_of_declarations (g := {}) rfl #[] with ⟨_, hcalls, _⟩
  rcases hcalls replacing with ⟨_, hreflects, hentry⟩
  refine ⟨hsucceeded, ?_, ?_⟩
  . rw [hreflects.names, hsucceeded, hempty]
    decide
  . apply hentry
    rw [hsucceeded, hempty]
    rfl

end Grammar
end TokenGrammar
