import Mathlib.Tactic.Tauto
import TokenGrammar.Proofs.Lockstep

/-!
This module contains the options that can never win: an option all of whose matches begin with a match
of an earlier one. It is tried all the same, but only where the earlier option was missed, and then it
is missed as well. So a grammar without such options gives the same answers and the same errors.
-/

namespace TokenGrammar

/--
The options that are left over when some are taken out, each of which begins with an option that was
kept before it. The options kept before the present place are `earlier`.
-/
inductive Pruned : (earlier options left : List (List String)) → Prop where
  | nil {earlier} : Pruned earlier [] []
  | keep {earlier option options left} (h : Pruned (option :: earlier) options left)
      : Pruned earlier (option :: options) (option :: left)
  | drop {earlier option options left} (hshadow : ∃ before ∈ earlier, before <+: option)
      (h : Pruned earlier options left)
      : Pruned earlier (option :: options) left

theorem Pruned.refl (earlier options : List (List String)) : Pruned earlier options options := by
  induction options generalizing earlier with
  | nil => exact .nil
  | cons option options ih => exact .keep (ih _)

theorem Pruned.eraseIdx {earlier options : List (List String)} {index : Nat}
    {shadowed : List String} (hshadowed : options[index]? = some shadowed)
    (hshadow : ∃ before ∈ earlier ++ options.take index, before <+: shadowed)
    : Pruned earlier options (options.eraseIdx index) := by
  induction options generalizing earlier index with
  | nil => exact .nil
  | cons option options ih =>
    cases index with
    | zero =>
      cases hshadowed
      rw [List.take_zero, List.append_nil] at hshadow
      exact .drop hshadow (.refl _ _)
    | succ index =>
      apply Pruned.keep
      apply ih hshadowed
      rcases hshadow with ⟨before, hbefore, hbegins⟩
      refine ⟨before, ?_, hbegins⟩
      simp only [List.take_succ_cons, List.mem_append, List.mem_cons] at hbefore ⊢
      tauto

/--
The one rule is the other one without some options that are shadowed.
-/
structure Rule.Prunes (rule rule' : Rule) : Prop where
  name : rule'.name = rule.name
  action : rule'.action = rule.action
  options : Pruned [] rule.options rule'.options

theorem Rule.Prunes.refl (rule : Rule) : rule.Prunes rule := ⟨rfl, rfl, .refl _ _⟩

/--
The one grammar is the other one with some shadowed options taken out of its rules.
-/
structure Grammar.Prunes (g g' : Grammar) : Prop where
  factory : g'.factory = g.factory
  splitter : g'.splitter = g.splitter
  names : g'.rules.names = g.rules.names
  rules : ∀ name, Option.Rel Rule.Prunes (g.rules.find? name) (g'.rules.find? name)

theorem Grammar.Prunes.refl (g : Grammar) : g.Prunes g where
  factory := rfl
  splitter := rfl
  names := rfl
  rules := by
    intro name
    cases g.rules.find? name with
    | none => exact .none
    | some rule => exact .some (.refl rule)

theorem Grammar.Prunes.sealed {g g' : Grammar} (h : g.Prunes g') : g.sealed.Prunes g'.sealed :=
  ⟨h.factory, h.splitter, h.names, h.rules⟩

namespace Run

variable {g g' : Grammar} {α β γ : Type}

theorem Parallels.bind_left {answers : β → γ → Prop} {run : Run α} {f : α → Run β} {run' : Run γ}
    {a : α} (hrun : Ensures g run (· = a) fun _ => False)
    (h : Parallels g g' Unrelated answers (f a) run')
    : Parallels g g' Unrelated answers (run >>= f) run' := by
  intro journal journal' hjournals
  rw [bind_apply]
  have hfirst := hrun journal
  rcases hresult : run ⟨g, journal⟩ with ⟨answer, grammar, after⟩
  rw [hresult] at hfirst
  rcases hfirst with ⟨hanswer, rfl⟩
  cases answer with
  | error fault => exact hanswer.elim
  | ok b =>
    cases hanswer
    exact h after journal' trivial

-- what a run returns at one time it returns at all times
theorem Ensures.of_returned {answers : α → α → Prop} {run : Run α} {a : α}
    (h : Parallels g g Unrelated answers run run) (hanswers : ∀ b, answers a b → b = a)
    (hreturned : ∃ journal, (run ⟨g, journal⟩).1 = .ok a)
    : Ensures g run (· = a) fun _ => False := by
  rcases hreturned with ⟨journal₀, hreturned⟩
  intro journal
  rcases h journal₀ journal trivial with ⟨hanswer, _, hgrammar, _⟩
  refine ⟨?_, hgrammar⟩
  rw [hreturned] at hanswer
  cases hresult : (run ⟨g, journal⟩).1 with
  | error fault =>
    rw [hresult] at hanswer
    exact hanswer.elim
  | ok b =>
    rw [hresult] at hanswer
    exact hanswers b hanswer

end Run

namespace Matcher

variable {g g' : Grammar} {tracing : Bool} {matcher matcher' : Matcher} {rule rule' : Rule}

theorem matchElements_append (attempt : Attempt) (before after : List String)
    : matchElements tracing matcher rule attempt (before ++ after)
        =
      (do
        match ← matchElements tracing matcher rule attempt before with
        | some attempt => matchElements tracing matcher rule attempt after
        | none => return none) := by
  induction before generalizing attempt with
  | nil => rw [List.nil_append, matchElements, pure_bind]
  | cons element before ih =>
    rw [List.cons_append, matchElements, matchElements, bind_assoc]
    congr
    funext answer
    cases answer with
    | none => rfl
    | some next => exact ih next

theorem Misses.ne_nil {stream : TokenStream} {option : List String}
    (h : Misses g tracing matcher rule stream option)
    : option ≠ [] := by
  rintro rfl
  rcases h with ⟨node, _, journal, h⟩
  cases h

/--
Rules are matched the same whatever the journal holds.
-/
def Steady (g : Grammar) (matcher : Matcher) : Prop :=
  ∀ name, RefersAlike g g Run.Unrelated Eq matcher matcher name

theorem Misses.ensures_none {stream : TokenStream} {option longer : List String}
    (h : Misses g tracing matcher rule stream option) (hbegins : option <+: longer)
    (huniform : g.factory.Uniform) (hsteady : Steady g matcher)
    : ∃ node, Run.Ensures g Run.newNode (· = node) (fun _ => False)
      ∧ Run.Ensures g (matchElements tracing matcher rule ⟨stream, [], node⟩ longer) (· = none)
        (fun _ => False) := by
  have hagrees : Agreement g g tracing tracing Run.Unrelated Eq Eq :=
    agreement_unrelated rfl huniform
  rcases h with ⟨node, hnode, hmiss⟩
  rcases hbegins with ⟨more, rfl⟩
  refine ⟨node, ?_, ?_⟩
  . exact Run.Ensures.of_returned hagrees.newNode (fun _ h => h.symm) hnode
  . rw [matchElements_append]
    have hoption : Run.Ensures g (matchElements tracing matcher rule ⟨stream, [], node⟩ option)
        (· = none) (fun _ => False) := by
      apply Run.Ensures.of_returned
        (matchElements_parallels hagrees rfl (fun _ _ name _ => hsteady name) ⟨rfl, rfl, rfl⟩) _ hmiss
      intro other hother
      cases hother
      rfl
    apply Run.Ensures.bind hoption
    rintro _ rfl
    exact Run.Ensures.pure rfl

theorem matchOptions_pruned {earlier options left : List (List String)} {stream : TokenStream}
    (hpruned : Pruned earlier options left) (hprunes : rule.Prunes rule')
    (hfactory : g'.factory = g.factory) (huniform : g.factory.Uniform) (hsteady : Steady g matcher)
    (htargets : ∀ name, RefersAlike g g' Run.Unrelated Eq matcher matcher' name)
    (hact : ∀ node, Run.Parallels g g' Run.Unrelated Eq (Run.act matcher rule node)
      (Run.act matcher' rule' node))
    (hearlier : ∀ option ∈ earlier, Misses g tracing matcher rule stream option)
    : Run.Parallels g g' Run.Unrelated (Option.Rel (Match.Related Eq))
        (matchOptions tracing matcher rule stream options)
        (matchOptions tracing matcher' rule' stream left) := by
  have hagrees : Agreement g g' tracing tracing Run.Unrelated Eq Eq :=
    agreement_unrelated hfactory huniform
  induction hpruned with
  | nil => exact matchOptions_nil_parallels hagrees hprunes.name
  | keep h ih =>
    apply matchOptions_cons_parallels hagrees hprunes.name (fun _ _ name _ => htargets name)
    . rintro node _ rfl
      exact hact node
    . intro hmiss
      apply ih
      simpa using ⟨hmiss, hearlier⟩
  | @drop earlier option options left hshadow h ih =>
    rcases hshadow with ⟨before, hbefore, hbegins⟩
    have hmiss := hearlier before hbefore
    rcases hmiss.ensures_none hbegins huniform hsteady with ⟨node, hnode, hnone⟩
    cases option with
    | nil => exact (hmiss.ne_nil (List.prefix_nil.mp hbegins)).elim
    | cons element elements =>
      show Run.Parallels _ _ _ _ (Run.newNode >>= _) _
      apply Run.Parallels.bind_left hnode
      apply Run.Parallels.bind_left hnone
      exact ih hearlier

theorem refersAlike_of_prunes (h : g.Prunes g')
    (hmatcher : ∀ rule rule', rule.Prunes rule' → ∀ stream,
      Run.Parallels g g' Run.Unrelated (Option.Rel (Match.Related Eq)) (matcher rule stream)
        (matcher' rule' stream))
    (name : String)
    : RefersAlike g g' Run.Unrelated Eq matcher matcher' name :=
  refersAlike_of_rel (h.rules name) fun target target' _ _ htarget => hmatcher target target' htarget

-- an action may start runs of its own, which are matched with what is left of the depth; so the
-- induction is on the depth, for all grammars and rules
theorem ofDepth_pruned (tracing : Bool) (depth : Nat) (hg : g.running ≠ 0) (hg' : g'.running ≠ 0)
    (h : g.Prunes g') (huniform : g.factory.Uniform) (hprunes : rule.Prunes rule')
    (stream : TokenStream)
    : Run.Parallels g g' Run.Unrelated (Option.Rel (Match.Related Eq)) (ofDepth tracing depth rule stream)
        (ofDepth tracing depth rule' stream) := by
  induction depth generalizing g g' rule rule' stream with
  | zero => exact Run.Parallels.throw .exhausted
  | succ depth ih =>
    have htargets {g g' : Grammar} (hg : g.running ≠ 0) (hg' : g'.running ≠ 0) (h : g.Prunes g')
        (huniform : g.factory.Uniform)
        : ∀ name, RefersAlike g g' Run.Unrelated Eq (ofDepth tracing depth) (ofDepth tracing depth) name :=
      refersAlike_of_prunes h fun _ _ hprunes stream => ih hg hg' h huniform hprunes stream
    apply matchOptions_pruned hprunes.options hprunes h.factory huniform
    . exact htargets hg hg (.refl g) huniform
    . exact htargets hg hg' h huniform
    . apply Run.act_parallels hg hg' h.splitter h.names _ (fun _ _ _ _ => trivial) hprunes.name
        hprunes.action
      exact htargets g.sealed_running_ne_zero g'.sealed_running_ne_zero h.sealed huniform
    . simp

end Matcher

namespace Grammar

variable {g g' : Grammar}

theorem Prunes.run (h : g.Prunes g') (huniform : g.factory.Uniform) (entry : Entry) (settings : Settings) (source : Source)
    : Run.Parallels g g' Run.Unrelated Eq (entry.run settings source) (entry.run settings source) := by
  have hruns : Run.Parallels g g' Run.Unrelated (Option.Rel (Match.Related Eq))
      (entry.run settings source) (entry.run settings source) := by
    apply Entry.run_parallels h.splitter h.names h.rules
    . intro rule rule' hprunes
      exact hprunes.name
    . intro rule rule' hprunes stream
      exact Matcher.ofDepth_pruned settings.tracing _ g.sealed_running_ne_zero
        g'.sealed_running_ne_zero h.sealed huniform hprunes stream
  exact hruns.mono fun _ _ => Match.eq_of_related

end Grammar

/--
The rule without the option at a place.
-/
def Rule.withoutOption (rule : Rule) (index : Nat) : Rule :=
  { rule with written := rule.written.eraseIdx index, options := rule.options.eraseIdx index }

namespace Grammar

theorem prunes_withoutOption {g : Grammar} {rule : Rule} {i j : Nat} {option shadowed : List String}
    (hfind : g.rules.find? rule.name = some rule) (hij : i < j)
    (hoption : rule.options[i]? = some option) (hshadowed : rule.options[j]? = some shadowed)
    (hbegins : option <+: shadowed)
    : g.Prunes { g with rules := g.rules.insert (rule.withoutOption j) } where
  factory := rfl
  splitter := rfl
  names := RuleSet.names_insert_of_find? hfind rfl
  rules := by
    have htake : option ∈ rule.options.take j := by
      rw [List.mem_iff_getElem?]
      refine ⟨i, ?_⟩
      rw [List.getElem?_take_of_lt hij, hoption]
    have hprunes : rule.Prunes (rule.withoutOption j) :=
      ⟨rfl, rfl, .eraseIdx hshadowed ⟨option, htake, hbegins⟩⟩
    exact RuleSet.rel_find?_insert Rule.Prunes.refl hfind rfl hprunes

namespace Entry

/--
A rule whose last option begins with its first one.
-/
def trailingRule : Rule where
  name := "r"
  options := [["\"x", "r"], ["\"x"], ["\"x", "r", "\"y"]]

/--
The grammar of that rule.
-/
def trailing : Grammar where
  rules := ⟨[trailingRule]⟩

/--
A rule with an option twice.
-/
def twiceRule : Rule where
  name := "r"
  options := [["\"a"], ["\"a"], ["\"b"]]

/--
Where the factory numbers its nodes, the node of a match tells that a dead option was tried.
-/
theorem run_withoutOption_numbering
    : let answer rule := (first.run {} (.stream ⟨#["b"], 0⟩)
        ⟨{ factory := .numbering, rules := ⟨[rule]⟩ }, #[]⟩).1
      (answer twiceRule).toOption.map (Option.map fun found => found.result.label?)
          = some (some (some "2"))
        ∧ (answer (twiceRule.withoutOption 1)).toOption.map (Option.map fun found => found.result.label?)
          = some (some (some "1")) := by
  decide +kernel

end Entry
end Grammar
end TokenGrammar
