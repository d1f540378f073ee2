import TokenGrammar.Proofs.Run

/-!
This module contains the runs that can be started on a grammar from outside: from the rule that was
declared first or from a rule by its name. Either way the run comes down to `Run.start`, so
statements about all runs of a grammar are statements about `Entry.run`.
-/

namespace TokenGrammar

namespace Run

/--
What a run reports when the matcher fails: a limit that is used up is reported with the rule and the
place where the run started.
-/
def reported (rule : Rule) (position : Int) : Fault → Fault
  | .exhausted => .nesting rule.name position
  | fault => fault

theorem reported_of_ne {rule : Rule} {position : Int} {fault : Fault} (h : fault ≠ .exhausted)
    : reported rule position fault = fault := by
  cases fault with
  | exhausted => exact (h rfl).elim
  | _ => rfl

theorem start_eq (matcher : Matcher) (rule : Rule) (source : Source)
    : start matcher rule source
        =
      (do
        let stream ← ofExcept (TokenStream.openSource (← grammar).splitter source)
        sealing do
          match ← outcome (matcher rule stream) with
          | .ok answer => return answer
          | .error fault => throw (reported rule stream.position fault)) := by
  unfold start
  congr
  funext g
  congr
  funext stream
  congr
  funext answer
  cases answer with
  | ok answer => rfl
  | error fault =>
    cases fault with
    | _ => rfl

theorem Ensures.start {g : Grammar} {matcher : Matcher} {rule : Rule} {source : Source}
    {stream : TokenStream} {holds : Option Match → Prop} {failing : Fault → Prop}
    (hsource : TokenStream.openSource g.splitter source = .ok stream)
    (h : Ensures g.sealed (matcher rule stream) holds failing)
    : Ensures g (start matcher rule source) holds
        (fun fault => ∃ inner, failing inner ∧ fault = reported rule stream.position inner) := by
  rw [start_eq]
  apply grammar_bind
  rw [hsource]
  apply ofExcept_bind
  . intro opened hopened
    cases hopened
    apply sealing
    apply outcome_bind h
    . intro answer hanswer
      exact pure hanswer
    . intro fault hfault
      apply throw
      exact ⟨fault, hfault, rfl⟩
  . simp

end Run

namespace Grammar

/--
Where a run of a grammar begins: at the rule that was declared first, or at the rule with a name.
-/
inductive Entry where
  | first
  | named (name : Value)

namespace Entry

/--
The rule of a rule set at which a run begins.
-/
def rule? (entry : Entry) (rules : RuleSet) : Except Fault Rule :=
  match entry with
  | .first => match rules.toList with
    | [] => .error .emptyRules
    | rule :: _ => .ok rule
  | .named name => rules.lookup name

/--
Match a source against the rule at which the run begins.
-/
def run (entry : Entry) (settings : Settings) (source : Source) : Run (Option Match) :=
  match entry with
  | .first => parse settings source
  | .named name => parseAs settings name source

theorem run_eq (entry : Entry) (settings : Settings) (source : Source)
    : entry.run settings source
        =
      (do
        let rule ← Run.ofExcept (entry.rule? (← Run.grammar).rules)
        Run.start (Matcher.ofSettings settings) rule source) := by
  cases entry with
  | named name => rfl
  | first =>
    unfold run parse rule?
    dsimp only
    congr
    funext g
    cases g.rules.toList with
    | nil => rfl
    | cons rule rules => rfl

theorem find?_of_rule? {entry : Entry} {rules : RuleSet} {rule : Rule}
    (h : entry.rule? rules = .ok rule)
    : rules.find? rule.name = some rule := by
  cases entry with
  | named name => exact RuleSet.find?_of_lookup h
  | first =>
    unfold rule? at h
    unfold RuleSet.find?
    dsimp only at h
    split at h
    . cases h
    . next hrules =>
      cases h
      rw [hrules]
      simp

theorem exists_found {answer : Except Fault (Option Match)} {tokens : List String}
    (h : answer.toOption.map (Option.map Match.tokens) = some (some tokens))
    : ∃ found, answer = .ok (some found) ∧ found.tokens = tokens := by
  rcases answer with _ | found
  . cases h
  . injection h with h
    rcases Option.map_eq_some_iff.mp h with ⟨found, hfound, htokens⟩
    rw [hfound]
    exact ⟨found, rfl, htokens⟩

/--
The error that a run ends with, if it does end with one.
-/
def fault? : Except Fault (Option Match) → Option Fault
  | .error fault => some fault
  | .ok _ => none

theorem exists_fault {answer : Except Fault (Option Match)} {f : Fault → β} {b : β}
    (h : (fault? answer).map f = some b)
    : ∃ fault, answer = .error fault ∧ f fault = b := by
  rcases answer with fault | _
  . exact ⟨fault, rfl, Option.some.inj h⟩
  . cases h

theorem ensures_run {entry : Entry} {settings : Settings} {g : Grammar} {rule : Rule}
    {source : Source} {holds : Option Match → Prop} {failing : Fault → Prop}
    (hrule : entry.rule? g.rules = .ok rule)
    (h : Run.Ensures g (Run.start (Matcher.ofSettings settings) rule source) holds failing)
    : Run.Ensures g (entry.run settings source) holds failing := by
  rw [run_eq]
  apply Run.Ensures.grammar_bind
  rw [hrule]
  exact h

end Entry
end Grammar
end TokenGrammar
