import TokenGrammar.Proofs.Evaluation
import TokenGrammar.Proofs.Locality

/-!
This module contains rules that repeat a terminal by right recursion: the terminal with the rule behind
it, or else the terminal alone. Such a rule takes all the tokens that the terminal accepts, up to the
first one that it does not accept, and there is one level of nesting for each of them.
-/

namespace TokenGrammar

/--
The rule consists of an element for a terminal with the rule itself behind it, and of that element alone.
The terminal does not accept that no token is left, and the action returns the node.
-/
structure Rule.Repeats (rule : Rule) (element : String) (terminal : Element) : Prop where
  options : rule.options = [[element, rule.name], [element]]
  reads : Element.read element = .ok terminal
  refers : Element.read rule.name = .ok (.reference rule.name)
  ne_reference : ∀ name, terminal ≠ .reference name
  accepts_none : terminal.accepts none = false
  act : ∀ node, rule.act node = .done node.toValue

/--
The tokens before the first one that the terminal does not accept.
-/
def Element.prefixOf (terminal : Element) (tokens : List String) : List String :=
  tokens.takeWhile fun token => terminal.accepts (some token)

/--
Lists in lists: each one holds a token and the list of the tokens behind it.
-/
def Value.nested : List String → Value
  | [] => .list []
  | [token] => .list [.text token]
  | token :: tokens => .list [.text token, nested tokens]

namespace Evaluation

variable {evaluator : Evaluator} {terminal : TokenGrammar.Element} {name token : String}
  {tokens : List String}

/--
The production of a rule with the given name that repeats a terminal.
-/
def repetition (terminal : TokenGrammar.Element) (name : String) : Production where
  options := [[terminal, .reference name], [terminal]]
  action := fun items => .ok (.list items)

theorem choice_repetition_refused (hterminal : ∀ name, terminal ≠ .reference name)
    (h : terminal.accepts tokens.head? = false)
    : choice evaluator (repetition terminal name).action (repetition terminal name).options tokens
        =
      .ok none := by
  have hrefused : element evaluator terminal tokens = .ok none := by
    rw [element_terminal hterminal, h]
    rfl
  unfold repetition
  rw [choice, series, hrefused]
  dsimp only
  rw [choice, series, hrefused]
  rfl

theorem choice_repetition_accepted (hterminal : ∀ name, terminal ≠ .reference name)
    (h : terminal.accepts (some token) = true)
    : choice evaluator (repetition terminal name).action (repetition terminal name).options
          (token :: tokens)
        =
      match evaluator name tokens with
      | .error fault => .error fault
      | .ok none => .ok (some ⟨[token], .list [.text token]⟩)
      | .ok (some found) => .ok (some ⟨token :: found.tokens, .list [.text token, found.result]⟩) := by
  have haccepted : element evaluator terminal (token :: tokens)
      = .ok (some ⟨[token], [.text token]⟩) := by
    rw [element_terminal hterminal, List.head?_cons, h]
    rfl
  unfold repetition
  rw [choice, series_cons_token haccepted, series_singleton, element]
  cases evaluator name tokens with
  | error fault => rfl
  | ok answer =>
    cases answer with
    | some found => rfl
    | none =>
      -- the rule has no match behind the token, so the token is taken by the other option
      dsimp only [Except.map, Option.map]
      rw [choice, series_singleton, haccepted]
      rfl

/--
A rule that repeats a terminal takes a level for each token that the terminal accepts, and one more to
find that there are no others.
-/
theorem evaluateAt_repetition (hterminal : ∀ name, terminal ≠ .reference name)
    (hnone : terminal.accepts none = false) (name : String) (depth : Nat) (tokens : List String)
    : evaluateAt [(name, repetition terminal name)] depth name tokens
        =
      if (terminal.prefixOf tokens).length < depth then
        .ok (if terminal.prefixOf tokens = [] then none
          else some ⟨terminal.prefixOf tokens, .nested (terminal.prefixOf tokens)⟩)
      else .error .exhausted := by
  have hlookup : [(name, repetition terminal name)].lookup name = some (repetition terminal name) := by
    rw [List.lookup_cons, BEq.rfl]
  -- the first token is decided on here, and those behind it one level down
  induction depth generalizing tokens with
  | zero =>
    rw [evaluateAt, hlookup]
    simp
  | succ depth ih =>
    rw [evaluateAt_succ hlookup]
    cases tokens with
    | nil =>
      rw [choice_repetition_refused hterminal (by simpa using hnone)]
      simp [Element.prefixOf]
    | cons token tokens =>
      cases haccepts : terminal.accepts (some token) with
      | false =>
        have hprefix : terminal.prefixOf (token :: tokens) = [] := by
          simp [Element.prefixOf, haccepts]
        rw [choice_repetition_refused hterminal (by simpa using haccepts), hprefix]
        simp
      | true =>
        have hprefix : terminal.prefixOf (token :: tokens) = token :: terminal.prefixOf tokens := by
          simp [Element.prefixOf, haccepts]
        rw [choice_repetition_accepted hterminal haccepts, ih, hprefix]
        generalize terminal.prefixOf tokens = taken
        by_cases hdepth : taken.length < depth
        . have hsucc : (token :: taken).length < depth + 1 := by simpa using hdepth
          rw [if_pos hdepth, if_pos hsucc, if_neg (List.cons_ne_nil token taken)]
          cases taken with
          | _ => rfl
        . have hsucc : ¬ (token :: taken).length < depth + 1 := by simpa using hdepth
          rw [if_neg hdepth, if_neg hsucc]

end Evaluation

namespace Grammar

variable {g : Grammar} {rule : Rule} {element : String} {terminal : Element}

/--
The grammar with the rule and no other one.
-/
def alone (g : Grammar) (rule : Rule) : Grammar := { g with rules := ⟨[rule]⟩ }

theorem find?_alone (g : Grammar) (rule : Rule)
    : (g.alone rule).rules.find? rule.name = some rule := by
  simp [alone, RuleSet.find?]

theorem shares_alone (h : rule.Repeats element terminal) (hfind : g.rules.find? rule.name = some rule)
    : g.Shares (g.alone rule) {rule.name} where
  factory := rfl
  rules := by
    rintro name rfl
    rw [hfind, find?_alone]
    exact .some ⟨rfl, rfl⟩
  closed := by
    rintro name rfl found hfound option hoption written hwritten target hread
    rw [hfind] at hfound
    cases hfound
    have hmem : written ∈ [element, rule.name] := by
      rw [h.options] at hoption
      simp only [List.mem_cons, List.not_mem_nil, or_false] at hoption
      rcases hoption with rfl | rfl
      . exact hwritten
      . exact List.mem_cons.mpr (.inl (List.mem_singleton.mp hwritten))
    simp only [List.mem_cons, List.not_mem_nil, or_false] at hmem
    rcases hmem with rfl | rfl
    . rw [h.reads] at hread
      cases hread
      exact (h.ne_reference target rfl).elim
    . rw [h.refers] at hread
      cases hread
      rfl
  blind := by
    rintro name rfl found hfound node
    rw [hfind] at hfound
    cases hfound
    rw [h.act]
    trivial

theorem pursues_alone (h : rule.Repeats element terminal) (hfactory : g.factory = .list)
    : (g.alone rule).Pursues [(rule.name, Evaluation.repetition terminal rule.name)] where
  factory := hfactory
  rules := by
    have hreads : (Evaluation.repetition terminal rule.name).Reads rule := by
      constructor
      . rw [h.options]
        exact .cons (.cons h.reads (.cons h.refers .nil)) (.cons (.cons h.reads .nil) .nil)
      . intro items
        exact h.act (.list items)
    exact .cons ⟨rfl, hreads⟩ .nil

end Grammar

/--
A rule that repeats a terminal refers to no other rule. So the grammar has no say in its matching, and
what it comes to is worked out for the rule alone.
-/
theorem Matcher.ofDepth_repeats {g : Grammar} {rule : Rule} {element : String} {terminal : Element}
    {stream : TokenStream} (h : rule.Repeats element terminal) (hfactory : g.factory = .list)
    (hg : g.running ≠ 0) (hfind : g.rules.find? rule.name = some rule) (tracing : Bool) (depth : Nat)
    (hclean : stream.Clean)
    : Run.Answers g (ofDepth tracing depth rule stream)
        (if (terminal.prefixOf stream.rest).length < depth then
          .ok (if terminal.prefixOf stream.rest = [] then none
            else some ⟨terminal.prefixOf stream.rest, .nested (terminal.prefixOf stream.rest)⟩)
        else .error .exhausted) := by
  have halone : (g.alone rule).running ≠ 0 := hg
  have hshared := ofDepth_shared (Grammar.shares_alone h hfind) hg halone tracing depth rfl hfind
    (g.find?_alone rule) ⟨rfl, rfl⟩ stream
  apply (hshared.mono fun _ _ => Match.eq_of_related).ensures
  rw [← Evaluation.evaluateAt_repetition h.ne_reference h.accepts_none rule.name]
  exact (Grammar.pursues_alone h hfactory).ofDepth_evaluates (g.find?_alone rule) tracing depth hclean

namespace Grammar.Entry

/--
A rule that repeats a terminal matches just the tokens up to the first one that the terminal does not
accept, however many there are, and the result has a list in a list for each of them. There is no match
if there are no such tokens. The limit is used up if it is not greater than their number; so a limit
greater than the number of tokens that are left is never used up.
-/
theorem run_repeats {g : Grammar} {rule : Rule} {element : String} {terminal : Element} {entry : Entry}
    {source : Source} {stream : TokenStream} (h : rule.Repeats element terminal)
    (hfactory : g.factory = .list) (hrule : entry.rule? g.rules = .ok rule)
    (hsource : TokenStream.openSource g.splitter source = .ok stream) (hclean : stream.Clean)
    (settings : Settings) (journal : Array Event)
    : let taken := terminal.prefixOf stream.rest
      let limit := settings.nestingLimit stream.size
      let answer := (entry.run settings source ⟨g, journal⟩).1
      answer
          = (if taken.length < limit then .ok (if taken = [] then none else some ⟨taken, .nested taken⟩)
            else .error (.nesting rule.name stream.position))
        ∧ (stream.rest.length < limit → ∀ name position, answer ≠ .error (.nesting name position)) := by
  have hmatcher := Matcher.ofDepth_repeats (g := g.sealed) h hfactory g.sealed_running_ne_zero
    (find?_of_rule? hrule) settings.tracing (settings.nestingLimit stream.size) hclean
  intro taken limit answer
  have hanswer : answer
      = (if taken.length < limit then .ok (if taken = [] then none else some ⟨taken, .nested taken⟩)
        else .error .exhausted : Except Fault (Option Match)).mapError
          (Run.reported rule stream.position) :=
    run_answers hrule hsource hmatcher journal
  rw [hanswer]
  have htaken : taken.length ≤ stream.rest.length := (List.takeWhile_sublist _).length_le
  split
  . refine ⟨rfl, ?_⟩
    intro _ name position hnesting
    cases hnesting
  . refine ⟨rfl, ?_⟩
    intro hlimit
    omega

/--
A pattern for a digit.
-/
def digit : Element := .pattern (.one ⟨[.range 48 57], false, .exact⟩)

/--
A rule that repeats that pattern.
-/
def digitsRule : Rule where
  name := "digits"
  options := [["/[0-9]/", "digits"], ["/[0-9]/"]]

/--
A grammar with that rule, behind another one that refers to it.
-/
def digits : Grammar where
  rules := ⟨[{ name := "signed", options := [["\"-", "digits"], ["digits"]] }, digitsRule]⟩

theorem run_repeats_digits
    : ((named (.text "digits")).run {} (.stream ⟨#["-", "4", "0", "2", "-", "7"], 1⟩) ⟨digits, #[]⟩).1
        =
      .ok (some ⟨["4", "0", "2"], .list [.text "4", .list [.text "0", .list [.text "2"]]]⟩) := by
  have hrepeats : digitsRule.Repeats "/[0-9]/" digit := by
    constructor
    . rfl
    . exact eq_ok_of_toOption (by decide +kernel)
    . rfl
    . nofun
    . decide +kernel
    . intro node
      rfl
  have hrule : (named (.text "digits")).rule? digits.rules = .ok digitsRule := rfl
  have hclean : TokenStream.Clean ⟨#["-", "4", "0", "2", "-", "7"], 1⟩ := ⟨by decide, by simp⟩
  have htaken : digit.prefixOf (TokenStream.rest ⟨#["-", "4", "0", "2", "-", "7"], 1⟩)
      = ["4", "0", "2"] := by
    decide +kernel
  have hsource : TokenStream.openSource digits.splitter (.stream ⟨#["-", "4", "0", "2", "-", "7"], 1⟩)
      = .ok ⟨#["-", "4", "0", "2", "-", "7"], 1⟩ := rfl
  have hrun := (run_repeats hrepeats rfl hrule hsource hclean {} #[]).1
  rw [htaken] at hrun
  exact hrun

end Grammar.Entry
end TokenGrammar
