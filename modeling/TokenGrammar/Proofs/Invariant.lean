import TokenGrammar.Proofs.Entry

/-!
This module contains properties of a match that relate its tokens to its result. Such a property holds
of every match if new nodes have a matching property, appending to a node keeps it, and actions make the
one property out of the other.
-/

namespace TokenGrammar
namespace Matcher

/--
What is known of the tokens and the node of an attempt, and of the tokens and the result of a match, and
why it stays true step by step.
-/
structure Invariant (g : Grammar) (collected : List String → Node → Prop)
    (matched : List String → Value → Prop) : Prop where
  newNode : ∀ {before node}, g.factory.newNode before = .ok node → collected [] node
  token : ∀ {tokens node next} {token : String}, collected tokens node →
    node.add (.text token) = .ok next → collected (tokens ++ [token]) next
  embed : ∀ {tokens node more value next}, collected tokens node → matched more value →
    node.add value = .ok next → collected (tokens ++ more) next
  act : ∀ {tokens node rule} (matcher : Matcher), rule ∈ g.rules.toList → collected tokens node →
    Run.Ensures g (Run.act matcher rule node) (matched tokens) (fun _ => True)

/--
What is known of a match holds if there is one.
-/
def Matched (matched : List String → Value → Prop) (answer : Option Match) : Prop :=
  ∀ found, answer = some found → matched found.tokens found.result

/--
What is known of an attempt holds if there is one.
-/
def Collected (collected : List String → Node → Prop) (answer : Option Attempt) : Prop :=
  ∀ attempt, answer = some attempt → collected attempt.tokens attempt.node

namespace Invariant

variable {g : Grammar} {collected : List String → Node → Prop} {matched : List String → Value → Prop}
  {tracing : Bool} {matcher : Matcher} {rule : Rule} {attempt : Attempt} {stream : TokenStream}

theorem of_consume (h : Invariant g collected matched) {next : Attempt} {token : Option String}
    (hattempt : collected attempt.tokens attempt.node) (hnext : attempt.consume token = .ok next)
    : collected next.tokens next.node := by
  unfold Attempt.consume at hnext
  rcases Run.exists_of_bind_eq_ok hnext with ⟨node, hnode, hrest⟩
  rcases Run.exists_of_bind_eq_ok hrest with ⟨taken, _, hlast⟩
  cases hlast
  cases token with
  | none =>
    cases hnode
    simpa using hattempt
  | some token => exact h.token hattempt hnode

theorem of_embed (h : Invariant g collected matched) {next : Attempt} {found : Match}
    (hattempt : collected attempt.tokens attempt.node) (hfound : matched found.tokens found.result)
    (hnext : attempt.embed found = .ok next)
    : collected next.tokens next.node := by
  unfold Attempt.embed at hnext
  rcases Run.exists_of_bind_eq_ok hnext with ⟨node, hnode, hlast⟩
  cases hlast
  exact h.embed hattempt hfound hnode

theorem ensures_matchElement (h : Invariant g collected matched)
    (hmatcher : ∀ target ∈ g.rules.toList, ∀ there,
      Run.Ensures g (matcher target there) (Matched matched) (fun _ => True))
    (hattempt : collected attempt.tokens attempt.node) (element : String)
    : Run.Ensures g (matchElement tracing matcher rule attempt element) (Collected collected)
        (fun _ => True) := by
  have hterminal (terminal : Element) (token : Option String)
      : Run.Ensures g
          (if terminal.accepts token then do
            return some (← Run.ofExcept (attempt.consume token))
          else return none)
          (Collected collected) (fun _ => True) := by
    split
    . apply Run.Ensures.ofExcept_bind
      . intro next hnext
        apply Run.Ensures.pure
        rintro _ ⟨⟩
        exact h.of_consume hattempt hnext
      . simp
    . apply Run.Ensures.pure
      nofun
  unfold matchElement
  apply Run.Ensures.ofExcept_bind
  . intro token _
    apply Run.Ensures.trace_bind
    apply Run.Ensures.ofExcept_bind
    . intro read _
      cases read with
      | literal text => exact hterminal (.literal text) token
      | pattern regex => exact hterminal (.pattern regex) token
      | reference name =>
        apply Run.Ensures.grammar_bind
        apply Run.Ensures.ofExcept_bind
        . intro target htarget
          have hmem := RuleSet.mem_of_find? (RuleSet.find?_of_lookup htarget)
          apply Run.Ensures.bind (hmatcher target hmem attempt.stream)
          intro answer hanswer
          cases answer with
          | none =>
            apply Run.Ensures.pure
            nofun
          | some found =>
            apply Run.Ensures.ofExcept_bind
            . intro next hnext
              apply Run.Ensures.pure
              rintro _ ⟨⟩
              exact h.of_embed hattempt (hanswer found rfl) hnext
            . simp
        . simp
    . simp
  . simp

theorem ensures_matchElements (h : Invariant g collected matched)
    (hmatcher : ∀ target ∈ g.rules.toList, ∀ there,
      Run.Ensures g (matcher target there) (Matched matched) (fun _ => True))
    (hattempt : collected attempt.tokens attempt.node) (elements : List String)
    : Run.Ensures g (matchElements tracing matcher rule attempt elements) (Collected collected)
        (fun _ => True) := by
  induction elements generalizing attempt with
  | nil =>
    apply Run.Ensures.pure
    rintro _ ⟨⟩
    exact hattempt
  | cons element elements ih =>
    unfold matchElements
    apply Run.Ensures.bind (h.ensures_matchElement hmatcher hattempt element)
    intro answer hanswer
    cases answer with
    | none =>
      apply Run.Ensures.pure
      nofun
    | some next => exact ih (hanswer next rfl)

theorem ensures_newNode (h : Invariant g collected matched)
    : Run.Ensures g Run.newNode (collected []) (fun _ => True) := by
  apply Run.Ensures.newNode.mono
  . rintro node ⟨before, hnode⟩
    exact h.newNode hnode
  . simp

theorem ensures_matchOptions (h : Invariant g collected matched) (hrule : rule ∈ g.rules.toList)
    (hmatcher : ∀ target ∈ g.rules.toList, ∀ there,
      Run.Ensures g (matcher target there) (Matched matched) (fun _ => True))
    (options : List (List String))
    : Run.Ensures g (matchOptions tracing matcher rule stream options) (Matched matched)
        (fun _ => True) := by
  have hresult {tokens : List String} {node : Node} (hnode : collected tokens node)
      : Run.Ensures g (do return some ⟨tokens, ← Run.act matcher rule node⟩) (Matched matched)
          (fun _ => True) := by
    apply Run.Ensures.bind (h.act matcher hrule hnode)
    intro result hresult
    apply Run.Ensures.pure
    rintro _ ⟨⟩
    exact hresult
  induction options with
  | nil =>
    unfold matchOptions
    apply Run.Ensures.trace_bind
    apply Run.Ensures.pure
    nofun
  | cons option options ih =>
    cases option with
    | nil =>
      unfold matchOptions
      apply Run.Ensures.trace_bind
      apply Run.Ensures.bind h.ensures_newNode
      intro node hnode
      exact hresult hnode
    | cons element elements =>
      unfold matchOptions
      apply Run.Ensures.bind h.ensures_newNode
      intro node hnode
      apply Run.Ensures.bind (h.ensures_matchElements hmatcher hnode _)
      intro answer hanswer
      cases answer with
      | none => exact ih
      | some attempt =>
        apply Run.Ensures.trace_bind
        exact hresult (hanswer attempt rfl)

theorem ensures_ofDepth (h : Invariant g collected matched) (tracing : Bool) (depth : Nat)
    (hrule : rule ∈ g.rules.toList) (stream : TokenStream)
    : Run.Ensures g (ofDepth tracing depth rule stream) (Matched matched) (fun _ => True) := by
  induction depth generalizing rule stream with
  | zero =>
    apply Run.Ensures.throw
    trivial
  | succ depth ih =>
    apply h.ensures_matchOptions hrule
    intro target htarget there
    exact ih htarget there

end Invariant
end Matcher

namespace Grammar.Entry

theorem ensures_run_matched {g : Grammar} {collected : List String → Node → Prop}
    {matched : List String → Value → Prop} (h : Matcher.Invariant g.sealed collected matched)
    (entry : Entry) (settings : Settings) (source : Source)
    : Run.Ensures g (entry.run settings source) (Matcher.Matched matched) (fun _ => True) := by
  rw [run_eq]
  apply Run.Ensures.grammar_bind
  apply Run.Ensures.ofExcept_bind
  . intro rule hrule
    have hmem := RuleSet.mem_of_find? (find?_of_rule? hrule)
    cases hsource : TokenStream.openSource g.splitter source with
    | error fault =>
      rw [Run.start_eq]
      apply Run.Ensures.grammar_bind
      rw [hsource]
      apply Run.Ensures.throw
      trivial
    | ok stream =>
      have hmatcher : Run.Ensures g.sealed (Matcher.ofSettings settings rule stream)
          (Matcher.Matched matched) (fun _ => True) :=
        h.ensures_ofDepth settings.tracing _ hmem stream
      exact (Run.Ensures.start hsource hmatcher).mono_failing fun _ _ => trivial
  . simp

end Grammar.Entry
end TokenGrammar
