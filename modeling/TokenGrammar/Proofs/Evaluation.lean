import Mathlib.Data.List.Forall2
import TokenGrammar.Proofs.Account

/-!
This module contains runs without streams, nodes and the monad: the evaluation of productions on a list
of tokens. A run of a grammar whose nodes are lists, whose actions only look at the items of their nodes
and whose tokens are not empty gives the answer of an evaluation, errors included.
-/

namespace TokenGrammar

/--
What the matcher goes by at a rule: the elements of the options, and a function of the items of a node.
-/
structure Production where
  options : List (List Element)
  action : List Value → Except Fault Value

abbrev Productions := List (String × Production)

def Script.ofAnswer : Except Fault Value → Script
  | .ok result => .done result
  | .error fault => .fail fault

theorem eq_ok_of_toOption {α ε : Type} {answer : Except ε α} {a : α} (h : answer.toOption = some a)
    : answer = .ok a := by
  cases answer with
  | error fault => cases h
  | ok a' => exact congrArg Except.ok (Option.some.inj h)

structure Production.Reads (production : Production) (rule : Rule) : Prop where
  options : List.Forall₂
    (List.Forall₂ fun written element => Element.read written = .ok element)
    rule.options production.options
  act : ∀ items, rule.act (.list items) = .ofAnswer (production.action items)

/--
The production of a rule whose action only looks at the node.
-/
def Production.onNode (options : List (List Element)) (f : Node → Except Fault Value) : Production :=
  ⟨options, fun items => f (.list items)⟩

theorem Production.reads_onNode {rule : Rule} {options : List (List Element)}
    {f : Node → Except Fault Value} (haction : rule.action = some (.onNode f))
    (hoptions : List.Forall₂
      (List.Forall₂ fun written element => Element.read written = .ok element) rule.options options)
    : (onNode options f).Reads rule where
  options := hoptions
  act := by
    intro items
    unfold Rule.act onNode
    rw [haction]
    show Action.onNode f (.list items) rule.name = _
    unfold Action.onNode Action.pure
    dsimp only
    cases f (.list items) with
    | _ => rfl

/--
The productions are those of the grammar, whose nodes are lists.
-/
structure Grammar.Pursues (g : Grammar) (productions : Productions) : Prop where
  factory : g.factory = .list
  rules : List.Forall₂ (fun rule entry => rule.name = entry.1 ∧ entry.2.Reads rule) g.rules.toList
    productions

namespace Evaluation

abbrev Evaluator := String → List String → Except Fault (Option Match)

/--
What an option has taken: tokens, and items for its node.
-/
structure Piece where
  tokens : List String
  items : List Value

def Piece.append (piece later : Piece) : Piece :=
  ⟨piece.tokens ++ later.tokens, piece.items ++ later.items⟩

def element (evaluator : Evaluator) (element : Element) (tokens : List String)
    : Except Fault (Option Piece) :=
  match element with
  | .reference name =>
    (evaluator name tokens).map (Option.map fun found => ⟨found.tokens, [found.result]⟩)
  | terminal =>
    .ok (if terminal.accepts tokens.head? then some ⟨tokens.take 1, (tokens.take 1).map .text⟩
      else none)

theorem element_terminal {terminal : TokenGrammar.Element} (h : ∀ name, terminal ≠ .reference name)
    (evaluator : Evaluator) (tokens : List String)
    : element evaluator terminal tokens
        =
      .ok (if terminal.accepts tokens.head? then some ⟨tokens.take 1, (tokens.take 1).map .text⟩
        else none) := by
  cases terminal with
  | reference name => exact (h name rfl).elim
  | _ => rfl

def series (evaluator : Evaluator) : List Element → List String → Except Fault (Option Piece)
  | [], _ => .ok (some ⟨[], []⟩)
  | first :: others, tokens =>
    match element evaluator first tokens with
    | .error fault => .error fault
    | .ok none => .ok none
    | .ok (some piece) =>
      (series evaluator others (tokens.drop (max piece.tokens.length 1))).map
        (Option.map piece.append)

theorem element_literal (evaluator : Evaluator) (text : String) (rest : List String)
    : element evaluator (.literal text) (text :: rest) = .ok (some ⟨[text], [.text text]⟩) := by
  rw [element_terminal (by simp)]
  simp [Element.accepts]

theorem element_literal_ne (evaluator : Evaluator) {text : String} {tokens : List String}
    (h : tokens.head? ≠ some text)
    : element evaluator (.literal text) tokens = .ok none := by
  rw [element_terminal (by simp)]
  simp [Element.accepts, h]

theorem element_reference {evaluator : Evaluator} {name : String} {tokens : List String}
    {found : Match} (h : evaluator name tokens = .ok (some found))
    : element evaluator (.reference name) tokens = .ok (some ⟨found.tokens, [found.result]⟩) := by
  rw [element, h]
  rfl

theorem series_singleton (evaluator : Evaluator) (last : TokenGrammar.Element) (tokens : List String)
    : series evaluator [last] tokens = element evaluator last tokens := by
  rw [series]
  cases element evaluator last tokens with
  | error fault => rfl
  | ok piece =>
    cases piece with
    | none => rfl
    | some piece => simp [series, Except.map, Piece.append]

theorem series_cons {evaluator : Evaluator} {first : TokenGrammar.Element} {tokens rest : List String}
    {piece : Piece} (h : element evaluator first tokens = .ok (some piece))
    (htokens : tokens = piece.tokens ++ rest) (hne : piece.tokens ≠ [])
    (others : List TokenGrammar.Element)
    : series evaluator (first :: others) tokens
        =
      (series evaluator others rest).map (Option.map piece.append) := by
  have hlength : max piece.tokens.length 1 = piece.tokens.length := by
    have := List.length_pos_iff.mpr hne
    omega
  rw [series, h]
  dsimp only
  rw [hlength, htokens, List.drop_left]

theorem series_cons_token {evaluator : Evaluator} {first : TokenGrammar.Element} {token : String}
    {items : List Value} {rest : List String}
    (h : element evaluator first (token :: rest) = .ok (some ⟨[token], items⟩))
    (others : List TokenGrammar.Element)
    : series evaluator (first :: others) (token :: rest)
        =
      (series evaluator others rest).map (Option.map (Piece.append ⟨[token], items⟩)) :=
  series_cons h rfl (by simp) others

def choice (evaluator : Evaluator) (action : List Value → Except Fault Value)
    : List (List Element) → List String → Except Fault (Option Match)
  | [], _ => .ok none
  | option :: options, tokens =>
    match series evaluator option tokens with
    | .error fault => .error fault
    | .ok none => choice evaluator action options tokens
    | .ok (some piece) => (action piece.items).map fun result => some ⟨piece.tokens, result⟩

theorem choice_terminals {terminals : List TokenGrammar.Element} (evaluator : Evaluator)
    (action : List Value → Except Fault Value) (hterminals : ∀ name, .reference name ∉ terminals)
    (token : String) (rest : List String)
    : choice evaluator action (terminals.map fun terminal => [terminal]) (token :: rest)
        =
      if terminals.any (·.accepts (some token)) then
        (action [.text token]).map fun result => some ⟨[token], result⟩
      else .ok none := by
  induction terminals with
  | nil => rfl
  | cons terminal terminals ih =>
    have hterminal : ∀ name, terminal ≠ .reference name := by
      rintro name rfl
      exact hterminals name List.mem_cons_self
    have hrest := ih fun name hname => hterminals name (List.mem_cons_of_mem _ hname)
    rw [List.map_cons, choice, series_singleton, element_terminal hterminal, List.head?_cons,
      List.any_cons]
    cases terminal.accepts (some token) with
    | true => rfl
    | false => exact hrest

theorem choice_terminals_nil {terminals : List TokenGrammar.Element} (evaluator : Evaluator)
    (action : List Value → Except Fault Value) (hterminals : ∀ name, .reference name ∉ terminals)
    (hnone : ∀ terminal ∈ terminals, terminal.accepts none = false)
    : choice evaluator action (terminals.map fun terminal => [terminal]) [] = .ok none := by
  induction terminals with
  | nil => rfl
  | cons terminal terminals ih =>
    have hterminal : ∀ name, terminal ≠ .reference name := by
      rintro name rfl
      exact hterminals name List.mem_cons_self
    rw [List.map_cons, choice, series_singleton, element_terminal hterminal, List.head?_nil,
      if_neg (by simp [hnone terminal List.mem_cons_self])]
    exact ih (fun name hname => hterminals name (List.mem_cons_of_mem _ hname))
      fun terminal hmem => hnone terminal (List.mem_cons_of_mem _ hmem)

theorem choice_reference_cons {action : List Value → Except Fault Value}
    (haction : ∀ result, action [result] = .ok result) (evaluator : Evaluator) (name : String)
    (options : List (List TokenGrammar.Element)) (tokens : List String)
    : choice evaluator action ([.reference name] :: options) tokens
        =
      match evaluator name tokens with
      | .error fault => .error fault
      | .ok none => choice evaluator action options tokens
      | .ok (some found) => .ok (some found) := by
  rw [choice, series_singleton, element]
  cases evaluator name tokens with
  | error fault => rfl
  | ok found? =>
    cases found? with
    | none => rfl
    | some found =>
      dsimp only [Except.map, Option.map]
      rw [haction]

/--
A choice of rules has the match that at least one of them has, if the others have none.
-/
theorem choice_references {evaluator : Evaluator} {action : List Value → Except Fault Value}
    {tokens : List String} {found : Match} {names : List String}
    (haction : ∀ result, action [result] = .ok result)
    (h : ∀ name ∈ names, evaluator name tokens = .ok none ∨ evaluator name tokens = .ok (some found))
    (hfound : ∃ name ∈ names, evaluator name tokens = .ok (some found))
    : choice evaluator action (names.map fun name => [.reference name]) tokens = .ok (some found) := by
  induction names with
  | nil => simp at hfound
  | cons name names ih =>
    rw [List.map_cons, choice_reference_cons haction]
    rcases h name List.mem_cons_self with hname | hname
    . rw [hname]
      apply ih fun name hmem => h name (List.mem_cons_of_mem _ hmem)
      rcases hfound with ⟨name', hmem, hname'⟩
      rcases List.mem_cons.mp hmem with rfl | hmem
      . rw [hname] at hname'
        cases hname'
      . exact ⟨name', hmem, hname'⟩
    . rw [hname]

/--
Match the rule with a name against tokens, with at most `depth` rules under way at once.
-/
def evaluateAt (productions : Productions) (depth : Nat) : Evaluator :=
  fun name tokens =>
    match productions.lookup name with
    | none => .error (.unknownRule (.text name))
    | some production => match depth with
      | 0 => .error .exhausted
      | depth + 1 =>
        choice (evaluateAt productions depth) production.action production.options tokens

theorem evaluateAt_succ {productions : Productions} {name : String} {production : Production}
    (h : productions.lookup name = some production) (depth : Nat) (tokens : List String)
    : evaluateAt productions (depth + 1) name tokens
        =
      choice (evaluateAt productions depth) production.action production.options tokens := by
  rw [evaluateAt, h]

end Evaluation

/--
The cursor is not before the first token, and no token is empty.
-/
structure TokenStream.Clean (stream : TokenStream) : Prop where
  position : 0 ≤ stream.position
  tokens : "" ∉ stream.tokens

namespace TokenStream.Clean

variable {stream : TokenStream}

theorem next (h : stream.Clean)
    : ∃ after, stream.next = .ok (stream.rest.head?, after) ∧ after.Clean
        ∧ after.rest = stream.rest.drop 1 := by
  rcases next_eq h.position with ⟨after, hnext, htokens, hposition, _⟩
  rcases next_of_not_mem h.position h.tokens with ⟨after', hnext', hrest⟩
  rw [hnext, Except.ok.injEq, Prod.mk.injEq] at hnext'
  rcases hnext' with ⟨hhead, rfl⟩
  have := h.position
  refine ⟨after, ?_, ⟨by omega, ?_⟩, ?_⟩
  . rw [hnext, hhead]
  . rw [htokens]
    exact h.tokens
  . rw [hrest, List.drop_one]

theorem move (h : stream.Clean) (count : Nat) : (stream.move (max count 1)).Clean where
  position := by
    have := h.position
    rw [move_position]
    omega
  tokens := h.tokens

end TokenStream.Clean

/--
The run leaves the grammar as it is and gives the answer.
-/
def Run.Answers {α : Type} (g : Grammar) (run : Run α) (answer : Except Fault α) : Prop :=
  Ensures g run (fun a => answer = .ok a) (fun fault => answer = .error fault)

theorem Run.Answers.map {α β : Type} {g : Grammar} {run : Run α} {answer : Except Fault α}
    (h : Answers g run answer) (f : α → β)
    : Answers g (do return f (← run)) (answer.map f) := by
  cases answer with
  | ok a =>
    apply Ensures.bind (h.mono_failing (by simp))
    rintro _ ⟨⟩
    exact Ensures.pure rfl
  | error fault =>
    have hfailing : ∀ fault', (.error fault : Except Fault α) = .error fault' →
        (.error fault : Except Fault α).map f = .error fault' := by
      rintro _ ⟨⟩
      rfl
    apply Ensures.bind (h.mono_failing hfailing)
    simp

namespace Matcher

open Evaluation

/--
Rules that are referred to by a name are matched as they are evaluated.
-/
structure Evaluates (g : Grammar) (matcher : Matcher) (evaluator : Evaluator) : Prop where
  unknown : ∀ name tokens, g.rules.find? name = none →
    evaluator name tokens = .error (.unknownRule (.text name))
  known : ∀ name rule stream, g.rules.find? name = some rule → stream.Clean →
    Run.Answers g (matcher rule stream) (evaluator name stream.rest)

/--
The attempt has taken a piece, and there are tokens left.
-/
structure Attempt.Has (attempt : Attempt) (piece : Piece) (rest : List String) : Prop where
  clean : attempt.stream.Clean
  rest : attempt.stream.rest = rest
  tokens : attempt.tokens = piece.tokens
  node : attempt.node = .list piece.items

/--
Where the matcher goes on to an attempt, the evaluation takes a piece more, and the attempt has both.
-/
def Continues (piece : Piece) (answer : Except Fault (Option Piece)) : Option Attempt → Prop
  | none => answer = .ok none
  | some next =>
    ∃ more, answer = .ok (some more) ∧ next.tokens = piece.tokens ++ more.tokens
      ∧ next.node = .list (piece.items ++ more.items)

variable {g : Grammar} {tracing : Bool} {matcher : Matcher} {evaluator : Evaluator} {rule : Rule}
  {attempt : Attempt} {piece : Piece} {tokens : List String}

theorem Attempt.Has.consume (h : attempt.Has piece tokens)
    : ∃ next, attempt.consume tokens.head? = .ok next
        ∧ next.Has (piece.append ⟨tokens.take 1, (tokens.take 1).map .text⟩)
            (tokens.drop 1) := by
  rcases h.clean.next with ⟨after, hnext, hclean, hrest⟩
  unfold Attempt.consume
  rw [hnext, ← h.rest, h.node]
  cases hcases : attempt.stream.rest with
  | nil =>
    refine ⟨_, rfl, hclean, ?_, ?_, ?_⟩
    . rw [hrest, hcases]
    . simp [h.tokens, Piece.append]
    . simp [Piece.append]
  | cons token rest =>
    refine ⟨_, rfl, hclean, ?_, ?_, ?_⟩
    . rw [hrest, hcases]
    . simp [h.tokens, Piece.append]
    . rfl

theorem Attempt.Has.embed (h : attempt.Has piece tokens) (found : Match)
    : ∃ next, attempt.embed found = .ok next
        ∧ next.Has (piece.append ⟨found.tokens, [found.result]⟩)
            (tokens.drop (max found.tokens.length 1)) := by
  unfold Attempt.embed
  rw [h.node, Node.add_list, h.tokens]
  refine ⟨_, rfl, h.clean.move found.tokens.length, ?_, rfl, rfl⟩
  rw [← h.rest]
  exact TokenStream.rest_move_max h.clean.position found.tokens.length

theorem matchElement_evaluates {written : String} {read : Element} (tracing : Bool) (rule : Rule)
    (h : Evaluates g matcher evaluator) (hread : Element.read written = .ok read)
    (hattempt : attempt.Has piece tokens)
    : Run.Ensures g (matchElement tracing matcher rule attempt written)
        (fun next? => match next? with
          | none => element evaluator read tokens = .ok none
          | some next => ∃ more, element evaluator read tokens = .ok (some more)
            ∧ next.Has (piece.append more) (tokens.drop (max more.tokens.length 1)))
        (fun fault => element evaluator read tokens = .error fault) := by
  have hpeek : attempt.stream.peek 0 = .ok tokens.head? := by
    rw [TokenStream.peek_zero_of_not_mem hattempt.clean.position hattempt.clean.tokens, hattempt.rest]
  cases read with
  | reference name =>
    rw [matchElement_reference hpeek hread]
    apply Run.Ensures.trace_bind
    apply Run.Ensures.grammar_bind
    rw [RuleSet.lookup_text]
    cases hfind : g.rules.find? name with
    | none =>
      apply Run.Ensures.throw
      rw [element, h.unknown name tokens hfind]
      rfl
    | some target =>
      have htarget := h.known name target attempt.stream hfind hattempt.clean
      rw [hattempt.rest] at htarget
      have hfailing : ∀ fault, evaluator name tokens = .error fault →
          element evaluator (.reference name) tokens = .error fault := by
        intro fault hfault
        rw [element, hfault]
        rfl
      apply Run.Ensures.bind (htarget.mono_failing hfailing)
      intro found hfound
      cases found with
      | none =>
        apply Run.Ensures.pure
        rw [element, hfound]
        rfl
      | some found =>
        rcases hattempt.embed found with ⟨next, hembed, hnext⟩
        dsimp only
        rw [hembed]
        apply Run.Ensures.pure
        rw [element, hfound]
        exact ⟨_, rfl, hnext⟩
  | _ =>
    rw [matchElement_terminal hpeek hread (by simp)]
    apply Run.Ensures.trace_bind
    split
    . next haccepts =>
      rcases hattempt.consume with ⟨next, hconsume, hnext⟩
      rw [hconsume]
      apply Run.Ensures.pure
      refine ⟨⟨tokens.take 1, (tokens.take 1).map .text⟩, ?_, ?_⟩
      . rw [element_terminal (by simp), if_pos haccepts]
      . have hone : max (tokens.take 1).length 1 = 1 := by
          rw [List.length_take]
          omega
        dsimp only
        rw [hone]
        exact hnext
    . next haccepts =>
      apply Run.Ensures.pure
      dsimp only
      rw [element_terminal (by simp), if_neg haccepts]

theorem matchElements_evaluates {option : List String} {elements : List Element} (tracing : Bool)
    (rule : Rule) (h : Evaluates g matcher evaluator)
    (hoption : List.Forall₂ (fun written read => Element.read written = .ok read) option elements)
    (hattempt : attempt.Has piece tokens)
    : Run.Ensures g (matchElements tracing matcher rule attempt option)
        (Continues piece (series evaluator elements tokens))
        (fun fault => series evaluator elements tokens = .error fault) := by
  induction hoption generalizing attempt piece tokens with
  | nil =>
    apply Run.Ensures.pure
    exact ⟨⟨[], []⟩, rfl, by simp [hattempt.tokens], by simp [hattempt.node]⟩
  | @cons written read option elements hread hoption ih =>
    unfold matchElements
    have helement := matchElement_evaluates tracing rule h hread hattempt
    have hfailing : ∀ fault, element evaluator read tokens = .error fault →
        series evaluator (read :: elements) tokens = .error fault := by
      intro fault hfault
      rw [series, hfault]
    apply Run.Ensures.bind (helement.mono_failing hfailing)
    intro next? hnext
    cases next? with
    | none =>
      apply Run.Ensures.pure
      show series evaluator (read :: elements) tokens = .ok none
      rw [series, hnext]
    | some next =>
      rcases hnext with ⟨more, hmore, hnext⟩
      apply (ih hnext).mono
      . intro last? hlast
        cases last? with
        | none =>
          show series evaluator (read :: elements) tokens = .ok none
          rw [series, hmore]
          dsimp only
          rw [hlast]
          rfl
        | some last =>
          rcases hlast with ⟨later, hlater, htokens, hnode⟩
          refine ⟨more.append later, ?_, ?_, ?_⟩
          . rw [series, hmore]
            dsimp only
            rw [hlater]
            rfl
          . rw [htokens, Piece.append, Piece.append, List.append_assoc]
          . rw [hnode, Piece.append, Piece.append, List.append_assoc]
      . intro fault hfault
        rw [series, hmore]
        dsimp only
        rw [hfault]
        rfl

theorem act_evaluates {production : Production} (hreads : production.Reads rule) (items : List Value)
    : Run.Answers g (Run.act matcher rule (.list items)) (production.action items) := by
  unfold Run.act
  apply Run.Ensures.note_bind
  rw [hreads.act]
  cases production.action items with
  | ok result =>
    apply Run.Ensures.pure
    rfl
  | error fault =>
    apply Run.Ensures.throw
    rfl

theorem found_evaluates {production : Production} (hreads : production.Reads rule)
    {option : List Element} {options : List (List Element)} {tokens : List String} {piece : Piece}
    (hpiece : series evaluator option tokens = .ok (some piece))
    : Run.Answers g
        (do return some ⟨piece.tokens, ← Run.act matcher rule (.list piece.items)⟩)
        (choice evaluator production.action (option :: options) tokens) := by
  rw [choice, hpiece]
  exact (act_evaluates hreads piece.items).map fun result => some (Match.mk piece.tokens result)

theorem matchOptions_evaluates {stream : TokenStream} {production : Production}
    {options : List (List String)} {elements : List (List Element)}
    (hfactory : g.factory = .list) (h : Evaluates g matcher evaluator) (hreads : production.Reads rule)
    (hoptions : List.Forall₂
      (List.Forall₂ fun written read => Element.read written = .ok read) options elements)
    (hclean : stream.Clean)
    : Run.Answers g (matchOptions tracing matcher rule stream options)
        (choice evaluator production.action elements stream.rest) := by
  have hnode : Run.Ensures g Run.newNode (fun node => node = .list []) (fun _ => False) := by
    apply Run.Ensures.newNode.mono
    . rintro node ⟨before, hnode⟩
      rw [hfactory] at hnode
      cases hnode
      rfl
    . rintro fault ⟨before, hfault⟩
      rw [hfactory] at hfault
      cases hfault
  induction hoptions with
  | nil =>
    unfold matchOptions
    apply Run.Ensures.trace_bind
    exact Run.Ensures.pure rfl
  | @cons option elements options others hoption hoptions ih =>
    have hattempt : Attempt.Has ⟨stream, [], .list []⟩ ⟨[], []⟩ stream.rest := ⟨hclean, rfl, rfl, rfl⟩
    cases option with
    | nil =>
      cases hoption
      unfold matchOptions
      apply Run.Ensures.trace_bind
      apply Run.Ensures.bind (hnode.mono_failing (by simp))
      rintro _ rfl
      have hpiece : series evaluator [] stream.rest = .ok (some ⟨[], []⟩) := rfl
      exact found_evaluates hreads hpiece
    | cons written option =>
      unfold matchOptions
      apply Run.Ensures.bind (hnode.mono_failing (by simp))
      rintro _ rfl
      have helements := matchElements_evaluates tracing rule h hoption hattempt
      have hfailing : ∀ fault, series evaluator elements stream.rest = .error fault →
          choice evaluator production.action (elements :: others) stream.rest = .error fault := by
        intro fault hfault
        rw [choice, hfault]
      apply Run.Ensures.bind (helements.mono_failing hfailing)
      intro last? hlast
      cases last? with
      | none =>
        have hrest : choice evaluator production.action (elements :: others) stream.rest
            = choice evaluator production.action others stream.rest := by
          rw [choice, show series evaluator elements stream.rest = .ok none from hlast]
        rw [hrest]
        exact ih
      | some last =>
        rcases hlast with ⟨piece, hpiece, htokens, hitems⟩
        rw [List.nil_append] at htokens hitems
        dsimp only
        rw [htokens, hitems]
        apply Run.Ensures.trace_bind
        exact found_evaluates hreads hpiece

end Matcher

theorem Grammar.Entry.run_answers {g : Grammar} {entry : Entry} {rule : Rule} {source : Source}
    {stream : TokenStream} {settings : Settings} {answer : Except Fault (Option Match)}
    (hrule : entry.rule? g.rules = .ok rule)
    (hsource : TokenStream.openSource g.splitter source = .ok stream)
    (h : Run.Answers g.sealed (Matcher.ofSettings settings rule stream) answer) (journal : Array Event)
    : (entry.run settings source ⟨g, journal⟩).1
        =
      answer.mapError (Run.reported rule stream.position) := by
  have hrun := (ensures_run hrule (Run.Ensures.start hsource h) journal).1
  split at hrun
  . next found hfound =>
    rw [hfound, hrun]
    rfl
  . next fault hfault =>
    rcases hrun with ⟨inner, hinner, rfl⟩
    rw [hfault, hinner]
    rfl

namespace Grammar.Pursues

open Evaluation

variable {g : Grammar} {productions : Productions} {rule : Rule} {stream : TokenStream}

theorem sealed (h : g.Pursues productions) : g.sealed.Pursues productions := ⟨h.factory, h.rules⟩

theorem lookup (h : g.Pursues productions) (name : String)
    : Option.Rel (fun rule production => production.Reads rule) (g.rules.find? name)
        (productions.lookup name) := by
  unfold RuleSet.find?
  rcases h with ⟨_, hrules⟩
  generalize g.rules.toList = rules at hrules
  induction hrules with
  | nil => exact .none
  | @cons rule entry rules productions hentry _ ih =>
    rcases entry with ⟨name', production⟩
    rcases hentry with ⟨rfl, hreads⟩
    rw [List.find?_cons, List.lookup_cons, BEq.comm (a := name)]
    cases rule.name == name with
    | true => exact .some hreads
    | false => exact ih

theorem ofDepth_evaluates (h : g.Pursues productions) {name : String}
    (hfind : g.rules.find? name = some rule) (tracing : Bool) (depth : Nat) (hclean : stream.Clean)
    : Run.Answers g (Matcher.ofDepth tracing depth rule stream)
        (evaluateAt productions depth name stream.rest) := by
  have hlookup {name : String} {rule : Rule} (hfind : g.rules.find? name = some rule)
      : ∃ production, productions.lookup name = some production ∧ production.Reads rule := by
    have hrel := h.lookup name
    rw [hfind] at hrel
    generalize productions.lookup name = found at hrel
    cases hrel with
    | some hreads => exact ⟨_, rfl, hreads⟩
  -- a reference is matched with one level less, on whatever stream the attempt has left
  induction depth generalizing name rule stream with
  | zero =>
    rcases hlookup hfind with ⟨production, hproduction, _⟩
    apply Run.Ensures.throw
    rw [evaluateAt, hproduction]
  | succ depth ih =>
    rcases hlookup hfind with ⟨production, hproduction, hreads⟩
    rw [evaluateAt_succ hproduction]
    have hevaluates : Matcher.Evaluates g (Matcher.ofDepth tracing depth)
        (evaluateAt productions depth) := by
      constructor
      . intro name tokens hfind
        have hrel := h.lookup name
        rw [hfind] at hrel
        generalize hproduction : productions.lookup name = found at hrel
        cases hrel
        unfold evaluateAt
        rw [hproduction]
      . intro name rule stream hfind hclean
        exact ih hfind hclean
    exact Matcher.matchOptions_evaluates h.factory hevaluates hreads hreads.options hclean

theorem run_evaluates (h : g.Pursues productions) {entry : Entry} {source : Source}
    (hrule : entry.rule? g.rules = .ok rule)
    (hsource : TokenStream.openSource g.splitter source = .ok stream) (hclean : stream.Clean)
    (settings : Settings) (journal : Array Event)
    : (entry.run settings source ⟨g, journal⟩).1
        =
      (evaluateAt productions (settings.nestingLimit stream.size) rule.name stream.rest).mapError
        (Run.reported rule stream.position) :=
  Entry.run_answers hrule hsource
    (h.sealed.ofDepth_evaluates (Entry.find?_of_rule? hrule) settings.tracing _ hclean) journal

end Grammar.Pursues

def Callable.splitting (tokenize : String → List String) : Callable Splitter :=
  .function fun text => .ok (.texts (tokenize text))

theorem TokenStream.openSource_splitting (tokenize : String → List String) (text : String)
    : openSource (.splitting tokenize) (.text text) = .ok ⟨(tokenize text).toArray, 0⟩ :=
  ofItems_texts (tokenize text)

/--
The answer to a text comes from the evaluation of the first rule on the tokens of the text.
-/
theorem Grammar.Pursues.parse_text {g : Grammar} {productions : Productions} {rule : Rule}
    {tokenize : String → List String} {text : String} (h : g.Pursues productions)
    (hsplitter : g.splitter = .splitting tokenize) (hrule : g.rules.toList.head? = some rule)
    (hempty : "" ∉ tokenize text) (settings : Settings) (journal : Array Event)
    : (Grammar.parse settings (.text text) ⟨g, journal⟩).1
        =
      (Evaluation.evaluateAt productions (settings.nestingLimit (tokenize text).length) rule.name
        (tokenize text)).mapError (Run.reported rule 0) := by
  have hfirst : Entry.first.rule? g.rules = .ok rule := by
    unfold Entry.rule?
    cases hlist : g.rules.toList with
    | nil => simp [hlist] at hrule
    | cons first others =>
      rw [hlist] at hrule
      cases hrule
      rfl
  have hsource : TokenStream.openSource g.splitter (.text text) = .ok ⟨(tokenize text).toArray, 0⟩ := by
    rw [hsplitter]
    exact TokenStream.openSource_splitting tokenize text
  have hrest : TokenStream.rest ⟨(tokenize text).toArray, 0⟩ = tokenize text := by
    simp [TokenStream.rest]
  have hrun := h.run_evaluates hfirst hsource ⟨Int.le_refl 0, by simpa using hempty⟩ settings journal
  rw [hrest, TokenStream.size, List.size_toArray] at hrun
  exact hrun

end TokenGrammar
