import TokenGrammar.Proofs.Lockstep

/-!
This module contains the seal of a rule set: while a run is under way every declaration is refused,
and when the run has ended the grammar is what it was. What the actions attempt during a run is
compared with scripts in which the refusals are already written down: `barred` puts the refusal in
the place of each declaration. A run of a grammar and a run of its barred form cannot be told apart.
A refusal shows the name that was to be declared, and so it is another error where the name has no
written form.
-/

namespace TokenGrammar

/--
The script in which every declaration has been answered with its refusal.
-/
def Script.barred : Script → Script
  | .done result => .done result
  | .fail fault => .fail fault
  | .declare name _ _ next => barred (next (.error (Grammar.refusal name)))
  | .parseAs name source next => .parseAs name source fun answer => barred (next answer)
  | .names next => .names fun names => barred (next names)

/--
The rule whose action has its declarations refused.
-/
def Rule.barred (rule : Rule) : Rule :=
  { rule with action := rule.action.map fun action node name => (action node name).barred }

/--
The rule set of the barred rules.
-/
def RuleSet.barred (rules : RuleSet) : RuleSet := ⟨rules.toList.map Rule.barred⟩

/--
The grammar with the barred rules.
-/
def Grammar.barred (g : Grammar) : Grammar := { g with rules := g.rules.barred }

theorem Rule.act_barred (rule : Rule) (node : Node)
    : rule.barred.act node = (rule.act node).barred := by
  unfold act barred
  cases rule.action with
  | none => rfl
  | some action => rfl

theorem RuleSet.names_barred (rules : RuleSet) : rules.barred.names = rules.names :=
  names_map rules Rule.barred fun _ => rfl

theorem RuleSet.find?_barred (rules : RuleSet) (name : String)
    : rules.barred.find? name = (rules.find? name).map Rule.barred :=
  find?_map rules Rule.barred (fun _ => rfl) name

theorem RuleSet.lookup_barred (rules : RuleSet) (name : Value)
    : rules.barred.lookup name = (rules.lookup name).map Rule.barred := by
  by_cases htext : ∃ text, name = .text text
  . rcases htext with ⟨text, rfl⟩
    rw [lookup_text, lookup_text, find?_barred]
    cases rules.find? text with
    | none => rfl
    | some rule => rfl
  . rcases lookup_eq_error (not_exists.mp htext) with ⟨fault, hfault⟩
    rw [hfault, hfault]
    rfl

theorem Rule.readOptions_ne_sealed (rule : String) (options given : Value)
    : readOptions rule options ≠ .error (.sealed given) := by
  unfold readOptions
  intro h
  split at h
  . cases h
  . split at h
    . cases h
    . cases h
  . split at h
    . cases h
    . cases h
  . cases h

theorem Rule.readName_ne_sealed (name given : Value) : readName name ≠ .error (.sealed given) := by
  unfold readName
  intro h
  split at h
  . split at h
    . cases h
    . cases h
  . unfold Fault.showing at h
    split at h
    . cases h
    . cases h

theorem Rule.make_ne_sealed (name options : Value) (action : Callable Action) (given : Value)
    : (make name options action).2 ≠ .error (.sealed given) := by
  unfold make
  intro h
  split at h
  . next fault hname =>
    cases h
    exact readName_ne_sealed _ _ hname
  . next name hname =>
    unfold withOptions at h
    cases hread : readOptions name options with
    | error fault =>
      simp only [hread] at h
      cases h
      exact readOptions_ne_sealed _ _ _ hread
    | ok written =>
      simp only [hread] at h
      cases action with
      | absent => cases h
      | unfit value => cases h
      | function action => cases h

namespace Grammar

theorem enter_answer (name options : Value) (action : Callable Action) (session : Session)
    : (enter name options action session).1
        =
      (Rule.make name options action).2.map fun _ => () := by
  unfold enter
  rcases Rule.make name options action with ⟨warning, rule⟩
  cases warning with
  | none =>
    cases rule with
    | error fault => rfl
    | ok rule => rfl
  | some warning =>
    cases rule with
    | error fault => rfl
    | ok rule => rfl

theorem enter_ne_sealed (name options : Value) (action : Callable Action) (session : Session)
    (given : Value)
    : (enter name options action session).1 ≠ .error (.sealed given) := by
  rw [enter_answer]
  intro h
  cases hmake : (Rule.make name options action).2 with
  | ok rule =>
    rw [hmake] at h
    cases h
  | error fault =>
    rw [hmake] at h
    cases h
    exact Rule.make_ne_sealed _ _ _ _ hmake

/--
A refusal shows the name. It is the one for the seal unless the name has no written form, and then it
is the error of writing it.
-/
theorem refusal_cases (name : Value)
    : name.unwritable = false ∧ refusal name = .sealed name
      ∨ name.unwritable = true ∧ refusal name = .numeral .unwritable := by
  unfold refusal Fault.showing
  cases name.unwritable with
  | false => exact .inl ⟨rfl, rfl⟩
  | true => exact .inr ⟨rfl, rfl⟩

theorem declare_ne_sealed {session : Session} (h : session.grammar.running = 0)
    (name options : Value) (action : Callable Action) (given : Value)
    : (declare name options action session).1 ≠ .error (.sealed given) := by
  rw [Run.declare_of_open h]
  apply enter_ne_sealed

end Grammar

/--
A matcher that cannot tell a grammar from its barred form while a run is under way.
-/
def Matcher.Barring (matcher : Matcher) : Prop :=
  ∀ (g : Grammar) (rule : Rule) (stream : TokenStream), g.running ≠ 0 →
    Run.Mimics g g.barred (matcher rule stream) (matcher rule.barred stream)

namespace Run

variable {g : Grammar} {matcher : Matcher}

theorem start_barred (hmatcher : matcher.Barring) (rule : Rule) (source : Source)
    : Mimics g g.barred (start matcher rule source) (start matcher rule.barred source) := by
  have hsplitter : g.barred.splitter = g.splitter := rfl
  have hname : rule.barred.name = rule.name := rfl
  apply Parallels.mimics
  apply Parallels.start hsplitter hname
  intro stream
  exact (hmatcher g.sealed rule stream g.sealed_running_ne_zero).parallels

theorem startNamed_barred (hmatcher : matcher.Barring) (name : Value) (source : Source)
    : Mimics g g.barred (startNamed matcher name source) (startNamed matcher name source) := by
  unfold startNamed
  apply Mimics.grammar_bind
  show Mimics _ _ (ofExcept (g.rules.lookup name) >>= _)
    (ofExcept (g.rules.barred.lookup name) >>= _)
  rw [RuleSet.lookup_barred]
  cases g.rules.lookup name with
  | error fault => exact Mimics.throw fault
  | ok rule => exact start_barred hmatcher rule source

theorem perform_barred (hg : g.running ≠ 0) (hmatcher : matcher.Barring) (script : Script)
    : Mimics g g.barred (perform matcher script) (perform matcher script.barred) := by
  induction script using Script.induct with
  | done result => exact Mimics.pure result
  | fail fault => exact Mimics.throw fault
  | declare name options action next ih =>
    intro journal
    rw [perform_declare hg]
    exact ih (.error (Grammar.refusal name)) journal
  | parseAs name source next ih =>
    apply Mimics.bind
    . apply Mimics.outcome
      apply startNamed_barred hmatcher
    . exact ih
  | names next ih =>
    apply Mimics.grammar_bind
    show Mimics _ _ _ (perform matcher (next g.rules.barred.names).barred)
    rw [RuleSet.names_barred]
    apply ih

theorem act_barred (hg : g.running ≠ 0) (hmatcher : matcher.Barring) (rule : Rule) (node : Node)
    : Mimics g g.barred (act matcher rule node) (act matcher rule.barred node) := by
  have hgiven : rule.barred.action.isSome = rule.action.isSome := by
    unfold Rule.barred
    simp
  unfold act
  rw [Rule.act_barred, hgiven]
  apply Mimics.bind
  . apply Mimics.note
  . intro _
    apply perform_barred hg hmatcher

end Run

namespace Matcher

variable {g : Grammar} {matcher : Matcher}

theorem matchOptions_barred (hmatcher : matcher.Barring) (hg : g.running ≠ 0) (tracing : Bool)
    (rule : Rule) (stream : TokenStream) (options : List (List String))
    : Run.Mimics g g.barred (matchOptions tracing matcher rule stream options)
        (matchOptions tracing matcher rule.barred stream options) := by
  have hagrees : Agreement g g.barred tracing tracing Eq Eq Eq :=
    agreement_of_eq rfl
  have hoptions : Run.Parallels g g.barred Eq (Option.Rel (Match.Related Eq))
      (matchOptions tracing matcher rule stream options)
      (matchOptions tracing matcher rule.barred stream options) := by
    have hname : rule.barred.name = rule.name := rfl
    apply matchOptions_parallels hagrees hname
    . intro option _ element _ name _
      have hfind : g.barred.rules.find? name = (g.rules.find? name).map Rule.barred :=
        RuleSet.find?_barred g.rules name
      unfold RefersAlike
      rw [hfind]
      cases g.rules.find? name with
      | none => exact .none
      | some target =>
        apply Option.Rel.some
        intro stream
        exact (hmatcher g target stream hg).parallels.mono fun _ _ => Match.related_of_eq
    . rintro node _ rfl
      exact (Run.act_barred hg hmatcher rule node).parallels
  exact (hoptions.mono fun _ _ => Match.eq_of_related).mimics

-- the nested runs of an action are matched with what is left of the depth, so the induction
-- hypothesis covers them as well as the rules that are referred to
theorem ofDepth_barred (tracing : Bool) (depth : Nat) : (ofDepth tracing depth).Barring := by
  induction depth with
  | zero =>
    intro g rule stream hg
    exact Run.Mimics.throw .exhausted
  | succ depth ih =>
    intro g rule stream hg
    exact matchOptions_barred ih hg tracing rule stream rule.options

theorem ofSettings_barred (settings : Settings) : (ofSettings settings).Barring := by
  intro g rule stream hg
  exact ofDepth_barred settings.tracing _ g rule stream hg

end Matcher

namespace Grammar.Entry

theorem run_barred (entry : Entry) (settings : Settings) (source : Source) (g : Grammar)
    : Run.Mimics g g.barred (entry.run settings source) (entry.run settings source) := by
  have hsplitter : g.barred.splitter = g.splitter := rfl
  have hrules (name : String)
      : Option.Rel (fun rule barred => barred = rule.barred) (g.rules.find? name)
          (g.barred.rules.find? name) := by
    show Option.Rel _ _ (g.rules.barred.find? name)
    rw [RuleSet.find?_barred]
    cases g.rules.find? name with
    | none => exact .none
    | some rule => exact .some rfl
  apply Run.Parallels.mimics
  apply run_parallels hsplitter (RuleSet.names_barred g.rules) hrules
  . intro rule barred hbarred
    rw [hbarred]
    rfl
  . intro rule barred hbarred stream
    rw [hbarred]
    exact (Matcher.ofSettings_barred settings g.sealed rule stream
      g.sealed_running_ne_zero).parallels

end Grammar.Entry
end TokenGrammar
