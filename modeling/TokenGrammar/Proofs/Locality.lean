import Mathlib.Data.Set.Defs
import TokenGrammar.Proofs.Lockstep

/-!
This module contains how far a run looks around in its grammar: to the rules that it can get to by
references, and no further. Two grammars that have those rules in common run alike from each of them,
wherever the rules are declared and whatever other rules there are, as long as the actions do not look
at the grammar either.
-/

namespace TokenGrammar

/--
A script that asks the grammar nothing. It may try to declare rules, which is refused in any grammar
while a run is under way.
-/
def Script.Blind : Script → Prop
  | .done _ | .fail _ => True
  | .declare _ _ _ next => ∀ answer, (next answer).Blind
  | .parseAs .. | .names _ => False

/--
The rules have the same options and the same action.
-/
structure Rule.Alike (rule rule' : Rule) : Prop where
  options : rule'.options = rule.options
  action : rule'.action = rule.action

/--
The grammars have the rules with certain names in common. References in these rules lead to these names
again, and the actions of these rules ask the grammar nothing. A name may be declared in neither of the
grammars.
-/
structure Grammar.Shares (g g' : Grammar) (names : Set String) : Prop where
  factory : g'.factory = g.factory
  rules : ∀ name ∈ names, Option.Rel Rule.Alike (g.rules.find? name) (g'.rules.find? name)
  closed : ∀ name ∈ names, ∀ rule, g.rules.find? name = some rule → ∀ option ∈ rule.options,
    ∀ element ∈ option, ∀ target, Element.read element = .ok (.reference target) → target ∈ names
  blind : ∀ name ∈ names, ∀ rule, g.rules.find? name = some rule → ∀ node, (rule.act node).Blind

theorem Grammar.Shares.sealed {g g' : Grammar} {names : Set String} (h : g.Shares g' names)
    : g.sealed.Shares g'.sealed names :=
  ⟨h.factory, h.rules, h.closed, h.blind⟩

section

variable {g g' : Grammar} {journals : Array Event → Array Event → Prop} {matcher matcher' : Matcher}

theorem Run.perform_blind (hg : g.running ≠ 0) (hg' : g'.running ≠ 0) {script : Script}
    (hblind : script.Blind)
    : Parallels g g' journals Eq (perform matcher script) (perform matcher' script) := by
  induction script using Script.induct with
  | done result => exact Parallels.pure rfl
  | fail fault => exact Parallels.throw fault
  | declare name options action next ih =>
    intro journal journal' hjournals
    rw [perform_declare hg, perform_declare hg']
    exact ih _ (hblind (.error (Grammar.refusal name))) journal journal' hjournals
  | parseAs name source next ih => exact hblind.elim
  | names next ih => exact hblind.elim

end

namespace Matcher

variable {g g' : Grammar} {names : Set String}

-- a rule that is referred to has a name of the set again, so the induction is for all these rules
theorem ofDepth_shared (h : g.Shares g' names) (hg : g.running ≠ 0) (hg' : g'.running ≠ 0)
    (tracing : Bool) (depth : Nat) {name : String} {rule rule' : Rule} (hname : name ∈ names)
    (hfind : g.rules.find? name = some rule) (hfind' : g'.rules.find? name = some rule')
    (halike : rule.Alike rule') (stream : TokenStream)
    : Run.Parallels g g' Eq (Option.Rel (Match.Related Eq)) (ofDepth tracing depth rule stream)
        (ofDepth tracing depth rule' stream) := by
  induction depth generalizing name rule rule' stream with
  | zero => exact Run.Parallels.throw .exhausted
  | succ depth ih =>
    have hnames : rule'.name = rule.name := by
      rw [RuleSet.name_of_find? hfind, RuleSet.name_of_find? hfind']
    unfold ofDepth
    rw [halike.options]
    apply matchOptions_parallels (agreement_of_eq h.factory) hnames
    . intro option hoption element helement target hread
      have htarget := h.closed name hname rule hfind option hoption element helement target hread
      exact refersAlike_of_rel (h.rules target htarget) fun _ _ => ih htarget
    . rintro node _ rfl
      apply Run.act_parallels_of_perform Run.push_congr hnames halike.action
      exact Run.perform_blind hg hg' (h.blind name hname rule hfind node)

end Matcher

namespace Grammar

variable {g g' : Grammar} {names : Set String}

theorem Shares.parseAs (h : g.Shares g' names) (settings : Settings) {source : Source}
    (hopened : TokenStream.openSource g'.splitter source = TokenStream.openSource g.splitter source)
    {name : String} (hname : name ∈ names)
    : Run.Parallels g g' Eq (Option.Rel (Match.Related Eq))
        (Grammar.parseAs settings (.text name) source)
        (Grammar.parseAs settings (.text name) source) := by
  apply Run.startNamed_text_parallels hopened
  apply Matcher.refersAlike_of_rel (h.sealed.rules name hname)
  intro rule rule' hfind hfind' halike stream
  exact Matcher.ofDepth_shared h.sealed g.sealed_running_ne_zero g'.sealed_running_ne_zero
    settings.tracing _ hname hfind hfind' halike stream

/--
Two grammars that share the rules with certain names run alike from each of these rules, on a stream and
on every other source that they open alike: they give the same answer, be it a match, the lack of one or
an error, and they note the same events, so the same actions are called in the same order.
-/
theorem parseAs_shared (h : g.Shares g' names) {name : String} (hname : name ∈ names)
    {source : Source}
    (hopened : TokenStream.openSource g'.splitter source = TokenStream.openSource g.splitter source)
    (settings : Settings) (journal : Array Event)
    : let (answer, after) := parseAs settings (.text name) source ⟨g, journal⟩
      parseAs settings (.text name) source ⟨g', journal⟩ = (answer, ⟨g', after.journal⟩) := by
  have hruns := (h.parseAs settings hopened hname).mono fun _ _ => Match.eq_of_related
  exact hruns.apply_eq journal

/--
A rule that refers to the next one and to a name that no rule has.
-/
def callRule : Rule where
  name := "call"
  options := [["\"a", "echo"], ["\"c"], ["lost"]]

/--
A rule that refers back to the one before. Its action counts the items of the node.
-/
def echoRule : Rule where
  name := "echo"
  options := [["\"b", "call"], ["\"b"]]
  action := some fun node _ => .done (.int node.items.length)

/--
The grammar of the two rules.
-/
def calling : Grammar where
  rules := ⟨[callRule, echoRule]⟩

/--
A grammar in which the two rules stand the other way round and behind another one.
-/
def overheard : Grammar where
  rules := ⟨[{ name := "other", options := [["echo", "lost"]] }, echoRule, callRule]⟩

theorem calling_shares : calling.Shares overheard {"call", "echo", "lost"} where
  factory := rfl
  rules := by
    rintro name (rfl | rfl | rfl)
    . exact .some ⟨rfl, rfl⟩
    . exact .some ⟨rfl, rfl⟩
    . exact .none
  closed := by
    have hclosed {option : List String} {element target : String}
        (hoption : option ∈ callRule.options ++ echoRule.options) (helement : element ∈ option)
        (hread : Element.read element = .ok (.reference target))
        : target ∈ ({"call", "echo", "lost"} : Set String) := by
      have hmem : element ∈ ["\"a", "echo", "\"c", "lost", "\"b", "call", "\"b"] :=
        List.mem_flatten.mpr ⟨option, hoption, helement⟩
      simp only [List.mem_cons, List.not_mem_nil, or_false] at hmem
      -- what is left behind the literals are the references
      rcases hmem with rfl | rfl | rfl | rfl | rfl | rfl | rfl
      all_goals cases hread
      . exact .inr (.inl rfl)
      . exact .inr (.inr rfl)
      . exact .inl rfl
    rintro name (rfl | rfl | rfl) rule hfind option hoption element helement target hread
    . cases hfind
      exact hclosed (List.mem_append_left _ hoption) helement hread
    . cases hfind
      exact hclosed (List.mem_append_right _ hoption) helement hread
    . cases hfind
  blind := by
    rintro name (rfl | rfl | rfl) rule hfind node
    . cases hfind
      trivial
    . cases hfind
      trivial
    . cases hfind

theorem parseAs_shared_calling
    : parseAs {} (.text "call") (.stream ⟨#["z", "a", "b", "c"], 1⟩) ⟨overheard, #[]⟩
        =
      ((parseAs {} (.text "call") (.stream ⟨#["z", "a", "b", "c"], 1⟩) ⟨calling, #[]⟩).1,
        ⟨overheard,
          (parseAs {} (.text "call") (.stream ⟨#["z", "a", "b", "c"], 1⟩) ⟨calling, #[]⟩).2.journal⟩)
      ∧ (parseAs {} (.text "call") (.stream ⟨#["z", "a", "b", "c"], 1⟩) ⟨calling, #[]⟩).1.toOption.map
          (Option.map Match.tokens) = some (some ["a", "b", "c"]) :=
  ⟨parseAs_shared calling_shares (.inl rfl) rfl {} #[], by decide +kernel⟩

end Grammar
end TokenGrammar
