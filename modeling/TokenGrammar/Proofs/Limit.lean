import TokenGrammar.Proofs.Lockstep

/-!
This module contains what the nesting limit can do to a run: to end it, and nothing else. Running out of
depth is never taken for a missed option, so where a run does not end for it, a higher limit changes
nothing. Only an action that starts a run of its own can go on from the error of a limit that was used
up. Scripts that never do are compared with scripts as they are: `strict` lets them fail with the error
instead.
-/

namespace TokenGrammar

/--
The error with which a run reports that its limit was used up.
-/
def Fault.ReportsNesting : Fault → Prop
  | .nesting .. => True
  | _ => False

theorem Fault.ReportsNesting.exists_nesting {fault : Fault} (h : fault.ReportsNesting)
    : ∃ name position, fault = .nesting name position := by
  cases fault with
  | nesting name position => exact ⟨name, position, rfl⟩
  | _ => exact h.elim

/--
The error of a limit that was used up, as the matcher meets it: by the matcher itself or by a run that
an action has started.
-/
def Fault.OutOfDepth (fault : Fault) : Prop := fault = .exhausted ∨ fault.ReportsNesting

/--
The script that lets the error through where a run of its own has used up the limit.
-/
def Script.strict : Script → Script
  | .done result => .done result
  | .fail fault => .fail fault
  | .declare name options action next => .declare name options action fun answer => strict (next answer)
  | .parseAs name source next => .parseAs name source fun answer =>
    match answer with
    | .error (.nesting rule position) => .fail (.nesting rule position)
    | answer => strict (next answer)
  | .names next => .names fun names => strict (next names)

/--
A script that starts no run.
-/
def Script.RunFree : Script → Prop
  | .done _ | .fail _ => True
  | .declare _ _ _ next => ∀ answer, (next answer).RunFree
  | .parseAs .. => False
  | .names next => ∀ names, (next names).RunFree

theorem Script.RunFree.strict_eq {script : Script} (h : script.RunFree) : script.strict = script := by
  induction script using Script.induct with
  | done result => rfl
  | fail fault => rfl
  | declare name options action next ih =>
    unfold strict
    congr
    funext answer
    exact ih answer (h answer)
  | parseAs name source next ih => exact h.elim
  | names next ih =>
    unfold strict
    congr
    funext names
    exact ih names (h names)

/--
The rule whose action lets the errors of used up limits through.
-/
def Rule.strict (rule : Rule) : Rule :=
  { rule with action := rule.action.map fun action node name => (action node name).strict }

/--
The grammar whose actions let the errors of used up limits through. A run of it ends with such an error
as soon as its own limit or the limit of a run that an action has started is used up.
-/
def Grammar.strict (g : Grammar) : Grammar := { g with rules := ⟨g.rules.toList.map Rule.strict⟩ }

/--
No action goes on where a run that it has started has used up the limit: it fails with the error of
that run, and so it comes to the same whether it is given a chance to go on or not.
-/
def Grammar.IsStrict (g : Grammar) : Prop :=
  ∀ rule ∈ g.rules.toList, ∀ node, (rule.act node).strict = rule.act node

/--
The one rule is the strict form of the other one, as far as can be seen from a match.
-/
structure Rule.Heeds (rule rule' : Rule) : Prop where
  name : rule'.name = rule.name
  options : rule'.options = rule.options
  given : rule'.action.isSome = rule.action.isSome
  act : ∀ node, rule.act node = (rule'.act node).strict

/--
The rules of the one grammar are the strict forms of the rules of the other one.
-/
structure Grammar.Heeds (g g' : Grammar) : Prop where
  factory : g'.factory = g.factory
  splitter : g'.splitter = g.splitter
  names : g'.rules.names = g.rules.names
  rules : ∀ name, Option.Rel Rule.Heeds (g.rules.find? name) (g'.rules.find? name)

theorem Grammar.Heeds.sealed {g g' : Grammar} (h : g.Heeds g') : g.sealed.Heeds g'.sealed :=
  ⟨h.factory, h.splitter, h.names, h.rules⟩

theorem Rule.strict_heeds (rule : Rule) : rule.strict.Heeds rule where
  name := rfl
  options := rfl
  given := by
    unfold strict
    rw [Option.isSome_map]
  act := by
    intro node
    unfold act strict
    cases rule.action with
    | none => rfl
    | some action => rfl

theorem Grammar.find?_strict (g : Grammar) (name : String)
    : g.strict.rules.find? name = (g.rules.find? name).map Rule.strict :=
  RuleSet.find?_map g.rules Rule.strict (fun _ => rfl) name

theorem Grammar.strict_heeds (g : Grammar) : g.strict.Heeds g where
  factory := rfl
  splitter := rfl
  names := (RuleSet.names_map g.rules Rule.strict fun _ => rfl).symm
  rules := by
    intro name
    rw [g.find?_strict]
    cases g.rules.find? name with
    | none => exact .none
    | some rule => exact .some rule.strict_heeds

theorem Grammar.IsStrict.heeds_self {g : Grammar} (h : g.IsStrict) : g.Heeds g where
  factory := rfl
  splitter := rfl
  names := rfl
  rules := by
    intro name
    cases hfind : g.rules.find? name with
    | none => exact .none
    | some rule =>
      exact .some ⟨rfl, rfl, rfl, fun node => (h rule (RuleSet.mem_of_find? hfind) node).symm⟩

theorem Grammar.IsStrict.heeds_strict {g : Grammar} (h : g.IsStrict) : g.Heeds g.strict where
  factory := rfl
  splitter := rfl
  names := RuleSet.names_map g.rules Rule.strict fun _ => rfl
  rules := by
    intro name
    rw [g.find?_strict]
    cases hfind : g.rules.find? name with
    | none => exact .none
    | some rule =>
      have hstrict := rule.strict_heeds
      refine .some ⟨rfl, rfl, hstrict.given.symm, ?_⟩
      intro node
      have hrule := h rule (RuleSet.mem_of_find? hfind) node
      rw [hstrict.act, hrule, hrule]

section

variable {g g' : Grammar} {matcher matcher' : Matcher}

namespace Run

/--
A run that a run of the matcher follows reports a limit that is used up, whatever the place.
-/
theorem Follows.start_outOfDepth {places : TokenStream → TokenStream → Prop} {rule rule' : Rule}
    {source source' : Source} {journals : Array Event → Array Event → Prop}
    (hopened : Corresponds places (TokenStream.openSource g.splitter source)
      (TokenStream.openSource g'.splitter source'))
    (h : ∀ stream stream', places stream stream' →
      Follows Fault.OutOfDepth g.sealed g'.sealed journals (Option.Rel (Match.Related Eq))
        (matcher rule stream) (matcher' rule' stream'))
    : Follows Fault.ReportsNesting g g' journals (Option.Rel (Match.Related Eq))
        (Run.start matcher rule source) (Run.start matcher' rule' source') := by
  apply start hopened _ _ h
  . rintro fault position (rfl | hfault)
    . trivial
    . rcases hfault.exists_nesting with ⟨_, _, rfl⟩
      trivial
  . intro fault stream stream' hfault _
    have hne : fault ≠ .exhausted := fun h => hfault (.inl h)
    rw [reported_of_ne hne, reported_of_ne hne]

theorem startNamed_heeds (h : g.Heeds g')
    (hmatcher : ∀ rule rule', rule.Heeds rule' → ∀ stream,
      Follows Fault.OutOfDepth g.sealed g'.sealed Eq (Option.Rel (Match.Related Eq))
        (matcher rule stream) (matcher' rule' stream))
    (name : Value) (source : Source)
    : Follows Fault.ReportsNesting g g' Eq (Option.Rel (Match.Related Eq))
        (startNamed matcher name source) (startNamed matcher' name source) := by
  unfold startNamed
  apply Follows.grammar_bind
  apply Follows.bind
  . apply Follows.ofExcept
    exact Grammar.Entry.rule?_corresponds h.names h.rules (.named name)
  . intro rule rule' hrule
    have hopened : Corresponds Eq (TokenStream.openSource g.splitter source)
        (TokenStream.openSource g'.splitter source) := by
      rw [h.splitter]
      exact .refl fun _ _ => rfl
    apply Follows.start_outOfDepth hopened
    rintro stream _ rfl
    exact hmatcher rule rule' hrule stream

-- a nesting error that the first run is answered ends it, so whatever the second one does then is excused
theorem perform_strict_parseAs {journals : Array Event → Array Event → Prop} {name : Value}
    {source : Source} {next next' : Except Fault (Option Match) → Script}
    (hstart : Follows Fault.ReportsNesting g g' journals Eq (startNamed matcher name source)
      (startNamed matcher' name source))
    (hnext : ∀ answer, Follows Fault.ReportsNesting g g' journals Eq
      (perform matcher (next answer).strict) (perform matcher' (next' answer)))
    : Follows Fault.ReportsNesting g g' journals Eq
        (perform matcher (Script.parseAs name source next).strict)
        (perform matcher' (.parseAs name source next')) := by
  rw [Script.strict, perform, perform]
  apply Follows.outcome_bind hstart
  . intro fault hfault
    rcases hfault.exists_nesting with ⟨_, _, rfl⟩
    exact ⟨_, rfl, trivial⟩
  . intro answer answer' hanswer
    rw [← hanswer.eq]
    split
    . exact Follows.throw_excused trivial
    . apply hnext

theorem perform_heeds (hg : g.running ≠ 0) (hg' : g'.running ≠ 0)
    (hnames : g'.rules.names = g.rules.names)
    (hstart : ∀ name source, Follows Fault.ReportsNesting g g' Eq (Option.Rel (Match.Related Eq))
      (startNamed matcher name source) (startNamed matcher' name source))
    (script : Script)
    : Follows Fault.ReportsNesting g g' Eq Eq (perform matcher script.strict)
        (perform matcher' script) := by
  induction script using Script.induct with
  | done result => exact Follows.pure rfl
  | fail fault => exact Follows.throw fault
  | declare name options action next ih =>
    intro journal journal' hjournals
    rw [Script.strict, perform_declare hg, perform_declare hg']
    exact ih (.error (Grammar.refusal name)) journal journal' hjournals
  | parseAs name source next ih =>
    apply perform_strict_parseAs _ ih
    exact (hstart name source).mono (fun _ h => h) fun _ _ => Match.eq_of_related
  | names next ih =>
    apply Follows.grammar_bind
    rw [hnames]
    apply ih

theorem act_heeds (h : g.Heeds g') (hg : g.running ≠ 0) (hg' : g'.running ≠ 0) {rule rule' : Rule}
    (hrule : rule.Heeds rule')
    (hmatcher : ∀ rule rule', rule.Heeds rule' → ∀ stream,
      Follows Fault.OutOfDepth g.sealed g'.sealed Eq (Option.Rel (Match.Related Eq))
        (matcher rule stream) (matcher' rule' stream))
    (node : Node)
    : Follows Fault.OutOfDepth g g' Eq Eq (act matcher rule node) (act matcher' rule' node) := by
  have hperform := perform_heeds hg hg' h.names (startNamed_heeds h hmatcher) (rule'.act node)
  unfold act
  rw [hrule.name, hrule.given, hrule.act]
  apply Follows.bind (Parallels.note (push_congr _)).follows
  intro _ _ _
  exact hperform.mono (fun _ => .inr) fun _ _ h => h

end Run

namespace Matcher

variable {places : TokenStream → TokenStream → Prop} {rule rule' : Rule}
  {stream stream' : TokenStream}

-- the runs that an action starts are matched with what is left of the depth, on streams that are the
-- same for both; so the induction is on the depth, for all grammars and all ways to pair streams
theorem ofDepth_heeds (tracing : Bool) {depth depth' : Nat} (hdepth : depth ≤ depth')
    (h : g.Heeds g') (hg : g.running ≠ 0) (hg' : g'.running ≠ 0) (hrule : rule.Heeds rule')
    (hplaces : TokenStream.Bisimulation places) (hplace : places stream stream')
    : Run.Follows Fault.OutOfDepth g g' Eq (Option.Rel (Match.Related Eq))
        (ofDepth tracing depth rule stream) (ofDepth tracing depth' rule' stream') := by
  induction depth generalizing depth' g g' rule rule' places stream stream' with
  | zero => exact Run.Follows.throw_excused (.inl rfl)
  | succ depth ih =>
    rcases Nat.exists_eq_add_one_of_ne_zero (by omega : depth' ≠ 0) with ⟨depth', rfl⟩
    have hdepth : depth ≤ depth' := by omega
    unfold ofDepth
    rw [hrule.options]
    apply matchOptions_follows (agreement_of_eq h.factory) hplaces.toLookalike
      hrule.name _ _ hplace
    . intro option _ element _ name _
      refine ⟨hplaces.move, refersOn_of_rel (h.rules name) ?_⟩
      intro target target' htarget stream stream' hplace
      exact ih hdepth h hg hg' htarget hplaces hplace
    . rintro node _ rfl
      apply Run.act_heeds h hg hg' hrule
      intro rule rule' hrule stream
      exact ih hdepth h.sealed g.sealed_running_ne_zero g'.sealed_running_ne_zero hrule
        TokenStream.bisimulation_eq rfl

end Matcher

namespace Grammar.Entry

/--
A run takes the course of another one if the rules at which they can begin are matched so.
-/
theorem run_follows {rules : Rule → Rule → Prop} {journals : Array Event → Array Event → Prop}
    (hnames : g'.rules.names = g.rules.names)
    (hrules : ∀ name, Option.Rel rules (g.rules.find? name) (g'.rules.find? name)) {entry : Entry}
    {settings settings' : Settings} {places : TokenStream → TokenStream → Prop}
    {source source' : Source}
    (hopened : Run.Corresponds places (TokenStream.openSource g.splitter source)
      (TokenStream.openSource g'.splitter source'))
    (hmatcher : ∀ rule rule', entry.rule? g'.rules = .ok rule' → rules rule rule' →
      ∀ stream stream', places stream stream' →
        Run.Follows Fault.OutOfDepth g.sealed g'.sealed journals (Option.Rel (Match.Related Eq))
          (Matcher.ofSettings settings rule stream) (Matcher.ofSettings settings' rule' stream'))
    : Run.Follows Fault.ReportsNesting g g' journals Eq (entry.run settings source)
        (entry.run settings' source') := by
  have hruns : Run.Follows Fault.ReportsNesting g g' journals (Option.Rel (Match.Related Eq))
      (entry.run settings source) (entry.run settings' source') := by
    rw [run_eq, run_eq]
    apply Run.Follows.grammar_bind
    apply Run.Follows.bind
    . apply Run.Follows.ofExcept
      exact (rule?_corresponds hnames hrules entry).returned
    . intro rule rule' ⟨hrule, hrelated⟩
      apply Run.Follows.start_outOfDepth hopened
      exact hmatcher rule rule' hrule hrelated
  exact hruns.mono (fun _ h => h) fun _ _ => Match.eq_of_related

theorem run_heeds (h : g.Heeds g') (entry : Entry) (tracing : Bool) {lower higher : Nat → Nat}
    {places : TokenStream → TokenStream → Prop} (hplaces : TokenStream.Bisimulation places)
    {source source' : Source}
    (hopened : Run.Corresponds
      (fun stream stream' => places stream stream' ∧ lower stream.size ≤ higher stream'.size)
      (TokenStream.openSource g.splitter source) (TokenStream.openSource g'.splitter source'))
    : Run.Follows Fault.ReportsNesting g g' Eq Eq (entry.run ⟨tracing, lower⟩ source)
        (entry.run ⟨tracing, higher⟩ source') := by
  apply run_follows h.names h.rules hopened
  intro rule rule' _ hrule stream stream' ⟨hplace, hlimit⟩
  exact Matcher.ofDepth_heeds tracing hlimit h.sealed g.sealed_running_ne_zero
    g'.sealed_running_ne_zero hrule hplaces hplace

/--
A run of a grammar whose actions start no runs is the same under a higher limit, unless it ends for its
limit: it gives the same answer, be it a match, the lack of one or an error, with the same calls of
actions and the same trace.
-/
theorem run_higher_limit (hactions : ∀ rule ∈ g.rules.toList, ∀ node, (rule.act node).RunFree)
    (entry : Entry) (tracing : Bool) {source : Source} {lower higher : Nat → Nat}
    (hlimits : ∀ stream, TokenStream.openSource g.splitter source = .ok stream →
      lower stream.size ≤ higher stream.size)
    (journal : Array Event)
    (hanswer : ∀ name position,
      (entry.run ⟨tracing, lower⟩ source ⟨g, journal⟩).1 ≠ .error (.nesting name position))
    : entry.run ⟨tracing, higher⟩ source ⟨g, journal⟩
        =
      entry.run ⟨tracing, lower⟩ source ⟨g, journal⟩ := by
  have hopened : Run.Corresponds
      (fun stream stream' => stream = stream' ∧ lower stream.size ≤ higher stream'.size)
      (TokenStream.openSource g.splitter source) (TokenStream.openSource g.splitter source) :=
    .refl fun stream hstream => ⟨rfl, hlimits stream hstream⟩
  have hstrict : g.IsStrict := fun rule hrule node => (hactions rule hrule node).strict_eq
  have hruns := run_heeds hstrict.heeds_self entry tracing TokenStream.bisimulation_eq hopened
  have hfault (fault : Fault) (h : (entry.run ⟨tracing, lower⟩ source ⟨g, journal⟩).1 = .error fault)
      : ¬ fault.ReportsNesting := by
    intro hnesting
    rcases hnesting.exists_nesting with ⟨name, position, rfl⟩
    exact hanswer name position h
  rw [hruns.apply_eq hfault]
  have hgrammar := (hruns journal journal rfl).1
  rcases hrun : entry.run ⟨tracing, lower⟩ source ⟨g, journal⟩ with ⟨answer, grammar, after⟩
  rw [hrun] at hgrammar
  cases hgrammar
  rfl

/--
A rule that refers to itself behind a literal. Its action asks for the names of the rules.
-/
def nestedRule : Rule where
  name := "nested"
  options := [["\"a", "nested"], ["\"a"]]
  action := some fun _ _ => .names fun names => .done (.texts names)

/--
The grammar of that rule.
-/
def nested : Grammar where
  rules := ⟨[nestedRule]⟩

theorem run_higher_limit_nested
    : first.run ⟨true, fun tokens => 8 * tokens⟩ (.stream ⟨#["a", "a", "b"], 0⟩) ⟨nested, #[]⟩
        =
      first.run ⟨true, fun _ => 3⟩ (.stream ⟨#["a", "a", "b"], 0⟩) ⟨nested, #[]⟩
      ∧ (first.run ⟨true, fun _ => 3⟩ (.stream ⟨#["a", "a", "b"], 0⟩) ⟨nested, #[]⟩).1.toOption.map
          (Option.map Match.tokens) = some (some ["a", "a"]) := by
  have hmatch : (first.run ⟨true, fun _ => 3⟩ (.stream ⟨#["a", "a", "b"], 0⟩)
      ⟨nested, #[]⟩).1.toOption.map (Option.map Match.tokens) = some (some ["a", "a"]) := by
    decide +kernel
  refine ⟨run_higher_limit ?_ first true ?_ #[] ?_, hmatch⟩
  . intro rule hrule node
    rw [List.mem_singleton.mp hrule]
    exact fun _ => trivial
  . intro stream hstream
    cases hstream
    decide
  . intro name position hanswer
    rcases exists_found hmatch with ⟨found, hfound, _⟩
    rw [hfound] at hanswer
    cases hanswer

end Grammar.Entry
end
end TokenGrammar
