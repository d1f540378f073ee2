import TokenGrammar.Proofs.Equivalence
import TokenGrammar.Proofs.Remainder

/-!
This module contains the runs that actions start on the grammar by which they are run. Such a run shares
the rule set, the seal and the depth with the run around it, and still its answer is the one that the same
call has while no run is under way. So the run around it does not depend on the call, but on its answer
alone: an action that knows the answer can be spared the call.
-/

namespace TokenGrammar

/--
The grammar while the given number of runs is under way.
-/
def Grammar.underWay (g : Grammar) (count : Nat) : Grammar := { g with running := count }

theorem Grammar.underWay_heeds (g : Grammar) (count count' : Nat)
    : (g.underWay count).strict.Heeds (g.underWay count') :=
  ⟨rfl, rfl, g.strict_heeds.names, g.strict_heeds.rules⟩

namespace Grammar.Entry

variable {entry : Entry} {settings : Settings} {g : Grammar} {tracing : Bool} {source : Source}
  {limit limit' : Nat → Nat} {count count' : Nat} {journal journal' : Array Event}

-- the journals are no part of the answer, but the rules for runs side by side need the same one
theorem answer_eq_of_le (huniform : g.factory.Uniform)
    (hlimits : Run.Corresponds
      (fun stream stream' => stream = stream' ∧ limit stream.size ≤ limit' stream'.size)
      (TokenStream.openSource g.splitter source) (TokenStream.openSource g.splitter source))
    (h : ¬ entry.NestsTooDeep ⟨tracing, limit⟩ source ⟨g.underWay count, journal⟩)
    : (entry.run ⟨tracing, limit'⟩ source ⟨g.underWay count', journal'⟩).1
        =
      (entry.run ⟨tracing, limit⟩ source ⟨g.underWay count, journal⟩).1 := by
  have hfault := not_reportsNesting h
  have hhigher := (run_heeds (g.underWay_heeds count count') entry tracing
    TokenStream.bisimulation_eq hlimits).apply_eq hfault
  have hself := (run_strict_follows entry ⟨tracing, limit⟩ (g.underWay count) source).apply_eq hfault
  calc (entry.run ⟨tracing, limit'⟩ source ⟨g.underWay count', journal'⟩).1
      = (entry.run ⟨tracing, limit'⟩ source ⟨g.underWay count', journal⟩).1 :=
        run_equivalent (.refl _) entry _ source (.inr huniform)
    _ = (entry.run ⟨tracing, limit⟩ source ⟨(g.underWay count).strict, journal⟩).1 := by rw [hhigher]
    _ = (entry.run ⟨tracing, limit⟩ source ⟨g.underWay count, journal⟩).1 := by rw [hself]

/--
How many runs are under way and what the limits are cannot be seen from the answer of a run, unless one
of the limits is used up.
-/
theorem answer_eq_of_not_nestsTooDeep (huniform : g.factory.Uniform)
    (h : ¬ entry.NestsTooDeep ⟨tracing, limit⟩ source ⟨g.underWay count, journal⟩)
    (h' : ¬ entry.NestsTooDeep ⟨tracing, limit'⟩ source ⟨g.underWay count', journal'⟩)
    : (entry.run ⟨tracing, limit⟩ source ⟨g.underWay count, journal⟩).1
        =
      (entry.run ⟨tracing, limit'⟩ source ⟨g.underWay count', journal'⟩).1 := by
  cases hopened : TokenStream.openSource g.splitter source with
  | error fault =>
    apply answer_eq_of_le huniform _ h'
    rw [hopened]
    rfl
  | ok stream =>
    rcases Nat.le_total (limit stream.size) (limit' stream.size) with hle | hle
    . symm
      apply answer_eq_of_le huniform _ h
      rw [hopened]
      exact ⟨rfl, hle⟩
    . apply answer_eq_of_le huniform _ h'
      rw [hopened]
      exact ⟨rfl, hle⟩

end Grammar.Entry

/--
The second script does what the first one does, but it need not make all of its calls. For a call that it
is spared it goes on as if the call had been made and had the answer that it is known to have.
-/
inductive Script.Spares (answers : Value → Source → Except Fault (Option Match) → Prop)
    : Script → Script → Prop where
  | done (result : Value) : Spares answers (.done result) (.done result)
  | fail (fault : Fault) : Spares answers (.fail fault) (.fail fault)
  | declare {next next' : Except Fault Unit → Script} (name options : Value)
    (action : Callable (Node → String → Script))
    (hnext : ∀ answer, Spares answers (next answer) (next' answer))
    : Spares answers (.declare name options action next) (.declare name options action next')
  | parseAs {next next' : Except Fault (Option Match) → Script} (name : Value) (source : Source)
    (hnext : ∀ answer, Spares answers (next answer) (next' answer))
    : Spares answers (.parseAs name source next) (.parseAs name source next')
  | names {next next' : List String → Script} (hnext : ∀ names, Spares answers (next names) (next' names))
    : Spares answers (.names next) (.names next')
  | spared {name : Value} {source : Source} {answer : Except Fault (Option Match)}
    {next : Except Fault (Option Match) → Script} {script : Script} (hanswer : answers name source answer)
    (hnext : Spares answers (next answer) script)
    : Spares answers (.parseAs name source next) script

/--
The rules have the same name and the same options, and the action of the second one is spared calls.
-/
structure Rule.Spares (answers : Value → Source → Except Fault (Option Match) → Prop)
    (rule rule' : Rule) : Prop where
  name : rule'.name = rule.name
  options : rule'.options = rule.options
  act : ∀ node, Script.Spares answers (rule.act node) (rule'.act node)

namespace Grammar

/--
The answer that a call has while no run is under way. The run of the call does not nest too deep.
-/
structure Answers (g : Grammar) (settings : Settings) (name : Value) (source : Source)
    (answer : Except Fault (Option Match)) : Prop where
  shallow : ¬ (Entry.named name).NestsTooDeep settings source ⟨g.underWay 0, #[]⟩
  answer : (parseAs settings name source ⟨g.underWay 0, #[]⟩).1 = answer

/--
The grammars have the same rules but for their actions, and those of the second one are spared calls of
which it is known what the first grammar answers while no run is under way.
-/
structure Spares (g : Grammar) (settings : Settings) (g' : Grammar) : Prop where
  factory : g'.factory = g.factory
  splitter : g'.splitter = g.splitter
  names : g'.rules.names = g.rules.names
  rules : ∀ name,
    Option.Rel (Rule.Spares (g.Answers settings)) (g.rules.find? name) (g'.rules.find? name)

end Grammar

theorem Script.Spares.refl {answers : Value → Source → Except Fault (Option Match) → Prop}
    (script : Script)
    : script.Spares answers script := by
  induction script using Script.induct with
  | done result => exact .done result
  | fail fault => exact .fail fault
  | declare name options action next ih => exact .declare name options action ih
  | parseAs name source next ih => exact .parseAs name source ih
  | names next ih => exact .names ih

section

variable {settings : Settings} {g g' : Grammar} {count count' : Nat}

/--
A single action can be spared calls, and all the others are left as they are.
-/
theorem Grammar.spares_insert {rule rule' : Rule} (hfind : g.rules.find? rule.name = some rule)
    (hrule : rule.Spares (g.Answers settings) rule')
    : g.Spares settings { g with rules := g.rules.insert rule' } where
  factory := rfl
  splitter := rfl
  names := RuleSet.names_insert_of_find? hfind hrule.name
  rules := RuleSet.rel_find?_insert (fun _ => ⟨rfl, rfl, fun _ => .refl _⟩) hfind hrule.name hrule

namespace Run

/--
Started with the given grammar the run leaves it as it is. It has the given answer, unless it ends with
an excused error.
-/
def Yields {α : Type} (excused : Fault → Prop) (g : Grammar) (run : Run α) (answer : Except Fault α)
    : Prop :=
  ∀ journal, (run ⟨g, journal⟩).2.grammar = g
    ∧ ((∃ fault, (run ⟨g, journal⟩).1 = .error fault ∧ excused fault) ∨ (run ⟨g, journal⟩).1 = answer)

/--
A run that is left out, where the other run goes on as if it had been made and had the answer.
-/
theorem Follows.outcome_bind_left {α β γ : Type} {excused excused' : Fault → Prop}
    {answers : β → γ → Prop} {run : Run α} {f : Except Fault α → Run β} {run' : Run γ}
    {answer : Except Fault α} (hrun : Yields excused' g run answer)
    (hexcused : ∀ fault, excused' fault →
      ∃ fault', f (.error fault) = MonadExcept.throw fault' ∧ excused fault')
    (hanswer : Follows excused g g' Unrelated answers (f answer) run')
    : Follows excused g g' Unrelated answers (run.outcome >>= f) run' := by
  intro journal journal' _
  rw [bind_apply, outcome_apply]
  have hmid := hrun journal
  rcases hresult : run ⟨g, journal⟩ with ⟨given, grammar, after⟩
  rw [hresult] at hmid
  rcases hmid with ⟨rfl, ⟨fault, rfl, hfault⟩ | rfl⟩
  . rcases hexcused fault hfault with ⟨fault', hf, hfault'⟩
    dsimp only
    rw [hf]
    exact ⟨rfl, .inl ⟨fault', rfl, hfault'⟩⟩
  . exact hanswer after journal' trivial

/--
While runs are under way a call has the answer that it has while none is, or a limit is used up.
-/
theorem startNamed_yields {name : Value} {source : Source} {answer : Except Fault (Option Match)}
    (huniform : g.factory.Uniform) (h : g.Answers settings name source answer) (depth : Nat)
    : Yields Fault.ReportsNesting (g.underWay count).strict
        (startNamed (Matcher.ofDepth settings.tracing depth) name source) answer := by
  intro journal
  have hcall : startNamed (Matcher.ofDepth settings.tracing depth) name source
      = (Grammar.Entry.named name).run ⟨settings.tracing, fun _ => depth⟩ source := rfl
  have hself := Grammar.Entry.run_strict_follows (.named name) ⟨settings.tracing, fun _ => depth⟩
    (g.underWay count) source
  rw [hcall]
  refine ⟨(hself journal journal rfl).1, ?_⟩
  by_cases hdeep : (Grammar.Entry.named name).NestsTooDeep ⟨settings.tracing, fun _ => depth⟩ source
    ⟨g.underWay count, journal⟩
  . rcases hdeep with ⟨rule, position, hfault⟩
    exact .inl ⟨_, hfault, trivial⟩
  . right
    have hanswer := Grammar.Entry.answer_eq_of_not_nestsTooDeep huniform hdeep h.shallow
    rw [hself.apply_eq (Grammar.Entry.not_reportsNesting hdeep)] at hanswer
    exact hanswer.trans h.answer

theorem perform_spares {matcher matcher' : Matcher}
    {answers : Value → Source → Except Fault (Option Match) → Prop} (hg : g.running ≠ 0)
    (hg' : g'.running ≠ 0) (hnames : g'.rules.names = g.rules.names)
    (hstart : ∀ name source, Follows Fault.ReportsNesting g g' Unrelated Eq
      (startNamed matcher name source) (startNamed matcher' name source))
    (hanswers : ∀ name source answer, answers name source answer →
      Yields Fault.ReportsNesting g (startNamed matcher name source) answer)
    {script script' : Script} (h : script.Spares answers script')
    : Follows Fault.ReportsNesting g g' Unrelated Eq (perform matcher script.strict)
        (perform matcher' script') := by
  induction h with
  | done result => exact Follows.pure rfl
  | fail fault => exact Follows.throw fault
  | declare name options action _ ih =>
    intro journal journal' hjournals
    rw [Script.strict, perform_declare hg, perform_declare hg']
    exact ih (.error (Grammar.refusal name)) journal journal' hjournals
  | parseAs name source _ ih => exact perform_strict_parseAs (hstart name source) ih
  | names _ ih =>
    apply Follows.grammar_bind
    rw [hnames]
    apply ih
  | @spared name source answer next script' hanswer _ ih =>
    rw [Script.strict, perform]
    apply Follows.outcome_bind_left (hanswers name source answer hanswer)
    . intro fault hfault
      rcases hfault.exists_nesting with ⟨_, _, rfl⟩
      exact ⟨_, rfl, trivial⟩
    . split
      . exact Follows.throw_excused trivial
      . exact ih

end Run

theorem Grammar.Spares.find?_strict (h : g.Spares settings g') (count count' : Nat) (name : String)
    : Option.Rel
        (fun target target' => ∃ rule : Rule,
          rule.strict = target ∧ rule.Spares (g.Answers settings) target')
        ((g.underWay count).strict.rules.find? name) ((g'.underWay count').rules.find? name) := by
  have hfind : (g.underWay count).strict.rules.find? name = (g.rules.find? name).map Rule.strict :=
    g.find?_strict name
  have hfind' : (g'.underWay count').rules.find? name = g'.rules.find? name := rfl
  have hrule := h.rules name
  rw [hfind, hfind']
  generalize g.rules.find? name = target, g'.rules.find? name = target' at hrule
  cases hrule with
  | none => exact .none
  | @some rule rule' hrule => exact .some ⟨rule, rfl, hrule⟩

/--
A run whose actions are spared calls takes the course of the run with these calls, if the rules are
matched so.
-/
theorem Grammar.Entry.run_spares (h : g.Spares settings g') (limit : Nat → Nat)
    (hmatcher : ∀ rule rule' : Rule, rule.Spares (g.Answers settings) rule' → ∀ stream : TokenStream,
      Run.Follows Fault.OutOfDepth (g.underWay (count + 1)).strict (g'.underWay (count' + 1))
        Run.Unrelated (Option.Rel (Match.Related Eq))
        (Matcher.ofDepth settings.tracing (limit stream.size) rule.strict stream)
        (Matcher.ofDepth settings.tracing (limit stream.size) rule' stream))
    (entry : Entry) (source : Source)
    : Run.Follows Fault.ReportsNesting (g.underWay count).strict (g'.underWay count') Run.Unrelated Eq
        (entry.run ⟨settings.tracing, limit⟩ source) (entry.run ⟨settings.tracing, limit⟩ source) := by
  have hopened : Run.Corresponds Eq (TokenStream.openSource g.splitter source)
      (TokenStream.openSource g'.splitter source) := by
    rw [h.splitter]
    exact .refl fun _ _ => rfl
  have hnames : (g'.underWay count').rules.names = (g.underWay count).strict.rules.names :=
    h.names.trans g.strict_heeds.names
  apply run_follows hnames (h.find?_strict count count') hopened
  rintro _ rule' _ ⟨rule, rfl, hrule⟩ stream _ rfl
  exact hmatcher rule rule' hrule stream

theorem Run.act_spares {depth : Nat} (h : g.Spares settings g') (huniform : g.factory.Uniform)
    (hcount : count ≠ 0) (hcount' : count' ≠ 0)
    (hmatcher : ∀ rule rule' : Rule, rule.Spares (g.Answers settings) rule' → ∀ stream : TokenStream,
      Follows Fault.OutOfDepth (g.underWay (count + 1)).strict (g'.underWay (count' + 1)) Unrelated
        (Option.Rel (Match.Related Eq)) (Matcher.ofDepth settings.tracing depth rule.strict stream)
        (Matcher.ofDepth settings.tracing depth rule' stream))
    {rule rule' : Rule} (hrule : rule.Spares (g.Answers settings) rule') (node : Node)
    : Follows Fault.OutOfDepth (g.underWay count).strict (g'.underWay count') Unrelated Eq
        (act (Matcher.ofDepth settings.tracing depth) rule.strict node)
        (act (Matcher.ofDepth settings.tracing depth) rule' node) := by
  have hnames : (g'.underWay count').rules.names = (g.underWay count).strict.rules.names :=
    h.names.trans g.strict_heeds.names
  have hstart (name : Value) (source : Source)
      : Follows Fault.ReportsNesting (g.underWay count).strict (g'.underWay count') Unrelated Eq
          (startNamed (Matcher.ofDepth settings.tracing depth) name source)
          (startNamed (Matcher.ofDepth settings.tracing depth) name source) :=
    Grammar.Entry.run_spares h (fun _ => depth) hmatcher (.named name) source
  have hperform := perform_spares hcount hcount' hnames hstart
    (fun _ _ _ hanswer => startNamed_yields huniform hanswer depth) (hrule.act node)
  unfold act
  rw [rule.strict_heeds.act]
  apply Follows.bind (Parallels.note fun _ _ _ => trivial).follows
  intro _ _ _
  exact hperform.mono (fun _ => .inr) fun _ _ h => h

namespace Matcher

-- the runs that an action starts are matched with what is left of the depth, so the induction is for
-- any number of runs that are under way
theorem ofDepth_spares (h : g.Spares settings g') (huniform : g.factory.Uniform) (hcount : count ≠ 0)
    (hcount' : count' ≠ 0) (depth : Nat) {rule rule' : Rule} (hrule : rule.Spares (g.Answers settings) rule')
    (stream : TokenStream)
    : Run.Follows Fault.OutOfDepth (g.underWay count).strict (g'.underWay count') Run.Unrelated
        (Option.Rel (Match.Related Eq)) (ofDepth settings.tracing depth rule.strict stream)
        (ofDepth settings.tracing depth rule' stream) := by
  induction depth generalizing count count' rule rule' stream with
  | zero => exact Run.Follows.throw_excused (.inl rfl)
  | succ depth ih =>
    have hagreement : Agreement (g.underWay count).strict (g'.underWay count') settings.tracing
        settings.tracing Run.Unrelated Eq Eq :=
      agreement_unrelated h.factory huniform
    have hname : rule'.name = rule.strict.name := hrule.name
    have hoptions : rule'.options = rule.strict.options := hrule.options
    unfold ofDepth
    rw [hoptions]
    apply matchOptions_follows hagreement TokenStream.bisimulation_eq.toLookalike hname _ _ rfl
    . intro option _ element _ name _
      refine ⟨TokenStream.bisimulation_eq.move, ?_⟩
      apply refersOn_of_rel (h.find?_strict count count' name)
      rintro _ target' ⟨target, rfl, htarget⟩ stream _ rfl
      exact ih hcount hcount' htarget stream
    . rintro node _ rfl
      apply Run.act_spares h huniform hcount hcount' _ hrule
      intro rule rule' hrule stream
      exact ih (Nat.succ_ne_zero count) (Nat.succ_ne_zero count') hrule stream

end Matcher
namespace Grammar.Entry

/--
An action that matches a source goes on with the answer that the call has while no run is under way.
-/
theorem perform_parseAs {depth : Nat} {name : Value} {source : Source} (huniform : g.factory.Uniform)
    (next : Except Fault (Option Match) → Script) {journal : Array Event}
    (h : ¬ (named name).NestsTooDeep ⟨settings.tracing, fun _ => depth⟩ source
      ⟨g.underWay count, journal⟩)
    (hidle : ¬ (named name).NestsTooDeep settings source ⟨g.underWay 0, #[]⟩)
    : ∃ after,
        Run.perform (Matcher.ofDepth settings.tracing depth) (.parseAs name source next)
            ⟨g.underWay count, journal⟩
          =
        Run.perform (Matcher.ofDepth settings.tracing depth)
            (next (parseAs settings name source ⟨g.underWay 0, #[]⟩).1) ⟨g.underWay count, after⟩ := by
  have hcall : Run.startNamed (Matcher.ofDepth settings.tracing depth) name source
      = (named name).run ⟨settings.tracing, fun _ => depth⟩ source := rfl
  have hidle : (parseAs settings name source ⟨g.underWay 0, #[]⟩).1
      = ((named name).run ⟨settings.tracing, fun _ => depth⟩ source ⟨g.underWay count, journal⟩).1 :=
    answer_eq_of_not_nestsTooDeep huniform hidle h
  have hself := (run_strict_follows (named name) ⟨settings.tracing, fun _ => depth⟩ (g.underWay count)
    source).apply_eq (not_reportsNesting h)
  rw [Run.perform, Run.bind_apply, Run.outcome_apply, hidle, hcall, hself]
  exact ⟨_, rfl⟩

/--
A run of the grammar whose actions are spared calls has the same answer as the run with these calls.
-/
theorem run_eq_of_spares (h : g.Spares settings g') (huniform : g.factory.Uniform) {entry : Entry}
    {source : Source} {journal : Array Event} (hdepth : ¬ entry.NestsTooDeep settings source ⟨g, journal⟩)
    (journal' : Array Event)
    : (entry.run settings source ⟨g', journal'⟩).1 = (entry.run settings source ⟨g, journal⟩).1 := by
  have hfault := not_reportsNesting hdepth
  have hself := (run_strict_follows entry settings g source).apply_eq hfault
  have hspared : Run.Follows Fault.ReportsNesting g.strict g' Run.Unrelated Eq
      (entry.run settings source) (entry.run settings source) := by
    apply run_spares h settings.nestingLimit
    intro rule rule' hrule stream
    exact Matcher.ofDepth_spares h huniform (Nat.succ_ne_zero g.running) (Nat.succ_ne_zero g'.running) _ hrule
      stream
  rcases hspared journal journal' trivial with ⟨_, ⟨fault, hrun, hnesting⟩ | ⟨hanswers, _⟩⟩
  . exact (hfault fault hrun hnesting).elim
  . rw [hself]
    exact hanswers.eq.symm

/--
A run that an action starts, by calling the grammar by which it is run, is like any other run of this
grammar. However deep such runs are nested, the action goes on with the answer that the same call has while
no run is under way, be it a match, the lack of one or an error. And it comes to the same if actions are
spared such calls and go on with these answers at once: the run around them has the same answer. Both is
so unless a run nests too deep, and where no action goes on from such an error, this can be seen from the
answers of the runs that are compared.
-/
theorem run_reentrant (settings : Settings) {g : Grammar} (huniform : g.factory.Uniform)
    : (∀ count depth name source next journal,
        ¬ (named name).NestsTooDeep ⟨settings.tracing, fun _ => depth⟩ source
            ⟨g.underWay count, journal⟩ →
        ¬ (named name).NestsTooDeep settings source ⟨g.underWay 0, #[]⟩ →
        ∃ after,
          Run.perform (Matcher.ofDepth settings.tracing depth) (.parseAs name source next)
              ⟨g.underWay count, journal⟩
            =
          Run.perform (Matcher.ofDepth settings.tracing depth)
              (next (parseAs settings name source ⟨g.underWay 0, #[]⟩).1) ⟨g.underWay count, after⟩)
      ∧ (∀ g', g.Spares settings g' → ∀ (entry : Entry) source journal journal',
          ¬ entry.NestsTooDeep settings source ⟨g, journal⟩ →
          (entry.run settings source ⟨g', journal'⟩).1 = (entry.run settings source ⟨g, journal⟩).1)
      ∧ (g.IsStrict → ∀ (entry : Entry) limits source count journal,
          entry.NestsTooDeep limits source ⟨g.underWay count, journal⟩ →
          ∃ name position, (entry.run limits source ⟨g.underWay count, journal⟩).1
            = .error (.nesting name position)) := by
  refine ⟨?_, ?_, ?_⟩
  . intro count depth name source next journal h hidle
    exact perform_parseAs huniform next h hidle
  . intro g' h entry source journal journal' hdepth
    exact run_eq_of_spares h huniform hdepth journal'
  . intro hstrict entry limits source count journal h
    exact exists_nesting_of_nestsTooDeep (g := g.underWay count) hstrict h

/--
A rule whose action tries to declare a rule. It fails unless this is refused.
-/
def refusedRule : Rule where
  name := "inner"
  options := [["\"b"]]
  action := some fun _ _ => .declare (.text "new") (.text "\"c") .absent fun answer =>
    match answer with
    | .ok () => .fail .indexOutOfRange
    | .error _ => .done .null

/--
What an action does that matches a token of its own against that rule and returns the tokens of the match.
-/
def calling : Script :=
  .parseAs (.text "inner") (.stream ⟨#["b"], 0⟩) fun answer =>
    match answer with
    | .ok (some found) => .done (.texts found.tokens)
    | .ok none => .done .null
    | .error fault => .fail fault

/--
A rule that refers to itself, with the given script as what its action does.
-/
def chainRule (script : Script) : Rule where
  name := "chain"
  options := [["\"a", "chain"], ["\"a"]]
  action := some fun _ _ => script

/--
A grammar whose one rule matches tokens against the other one while it is matched itself.
-/
def chained : Grammar where
  rules := ⟨[chainRule calling, refusedRule]⟩

/--
The same grammar without the call, where the action has the tokens at once.
-/
def unchained : Grammar :=
  { chained with rules := chained.rules.insert (chainRule (.done (.texts ["b"]))) }

theorem chained_answers
    : ∃ found, chained.Answers {} (.text "inner") (.stream ⟨#["b"], 0⟩) (.ok (some found))
        ∧ found.tokens = ["b"] := by
  have hmatch : (parseAs {} (.text "inner") (.stream ⟨#["b"], 0⟩)
      ⟨chained.underWay 0, #[]⟩).1.toOption.map (Option.map Match.tokens) = some (some ["b"]) := by
    decide +kernel
  rcases exists_found hmatch with ⟨found, hanswer, htokens⟩
  exact ⟨found, ⟨not_nestsTooDeep_of_found ["b"] (by decide +kernel), hanswer⟩, htokens⟩

theorem chained_spares : chained.Spares {} unchained := by
  rcases chained_answers with ⟨found, hanswer, htokens⟩
  have hfind : chained.rules.find? (chainRule calling).name = some (chainRule calling) := rfl
  apply spares_insert hfind
  refine ⟨rfl, rfl, fun _ => .spared hanswer ?_⟩
  dsimp only
  rw [htokens]
  exact .done _

theorem run_reentrant_chained
    : (∃ after, Run.perform (Matcher.ofDepth false 7) calling ⟨chained.underWay 2, #[]⟩
        = (.ok (.texts ["b"]), ⟨chained.underWay 2, after⟩))
      ∧ (first.run {} (.stream ⟨#["a", "a"], 0⟩) ⟨unchained, #[]⟩).1
        = (first.run {} (.stream ⟨#["a", "a"], 0⟩) ⟨chained, #[]⟩).1
      ∧ (first.run {} (.stream ⟨#["a", "a"], 0⟩) ⟨chained, #[]⟩).1.toOption.map
          (Option.map Match.tokens) = some (some ["a", "a"]) := by
  rcases chained_answers with ⟨found, hanswer, htokens⟩
  rcases run_reentrant {} (g := chained) (NodeFactory.uniform_constant _) with ⟨hcalls, hspared, _⟩
  refine ⟨?_, ?_, ?_⟩
  . rcases hcalls 2 7 (.text "inner") (.stream ⟨#["b"], 0⟩) _ #[]
      (not_nestsTooDeep_of_found ["b"] (by decide +kernel)) hanswer.shallow with ⟨after, hcall⟩
    rw [hanswer.answer] at hcall
    refine ⟨after, ?_⟩
    rw [← htokens]
    exact hcall
  . apply hspared _ chained_spares
    exact not_nestsTooDeep_of_found ["a", "a"] (by decide +kernel)
  . decide +kernel

/--
A rule whose action tests a token of its own against another rule, and returns what the test found.
-/
def relayRule (name : String) : Rule where
  name := "relay"
  options := [["\"b"]]
  action := some fun _ _ => .parseAs (.text name) (.ofValue (.texts ["a"])) fun answer =>
    match answer with
    | .ok (some found) => .done found.result
    | .ok none => .done .null
    | .error fault => .fail fault

/--
The grammar where the other rule is the one that goes on from every error, with the rules that it needs.
-/
def relaying : Grammar where
  rules := ⟨relayRule "diving" :: diving.rules.toList⟩

/--
The grammar where the other rule returns its node, and the factory numbers the nodes.
-/
def numbered : Grammar where
  factory := .numbering
  rules := ⟨[relayRule "leaf", { name := "leaf", options := [["\"a"]] }]⟩

/--
An action that goes on from the error of a used up limit gives away how many rules are being matched: the
same test finds something else while a run is under way. A factory that numbers its nodes does so, too.
-/
theorem run_reentrant_relaying
    : (first.run ⟨false, fun _ => 4⟩ (.ofValue (.texts ["b"])) ⟨relaying, #[]⟩).1.toOption.map
          (Option.map fun found => found.result.text?) = some (some (some "lost"))
      ∧ (parseAs ⟨false, fun _ => 4⟩ (.text "diving") (.ofValue (.texts ["a"]))
          ⟨relaying, #[]⟩).1.toOption.map (Option.map fun found => found.result.text?)
        = some (some (some "found"))
      ∧ (first.run {} (.ofValue (.texts ["b"])) ⟨numbered, #[]⟩).1.toOption.map
          (Option.map fun found => found.result.label?) = some (some (some "1"))
      ∧ (parseAs {} (.text "leaf") (.ofValue (.texts ["a"]))
          ⟨numbered, #[]⟩).1.toOption.map (Option.map fun found => found.result.label?)
        = some (some (some "0")) := by
  refine ⟨?_, ?_, ?_, ?_⟩
  . decide +kernel
  . decide +kernel
  . decide +kernel
  . decide +kernel

end Grammar.Entry
end
end TokenGrammar
