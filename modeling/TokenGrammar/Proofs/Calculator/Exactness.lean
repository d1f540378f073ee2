import TokenGrammar.Proofs.Calculator.Soundness

/-!
This module contains the language of the calculator. What is derivable is found, although every choice of
the matcher is final: behind an expression no operator follows, behind a term none of a product.
-/

namespace TokenGrammar
namespace Calculator

open Evaluation

theorem choose_eq (depth : Nat) (symbol : Symbol) (tokens : List String)
    : ranked.choose depth symbol tokens
        =
      choice (ranked.evaluate depth) symbol.production.action symbol.production.options tokens := rfl

theorem element_symbol {symbol : Symbol} {tokens taken : List String} {result : Value} {depth : Nat}
    (h : ranked.Gives symbol tokens taken result) (hdepth : ranked.need symbol tokens.length ≤ depth)
    : element (ranked.evaluate depth) (.reference symbol.name) tokens
        = .ok (some ⟨taken, [result]⟩) :=
  h.reference hdepth

theorem element_mark (evaluator : Evaluator) (operator : Operator) (rest : List String)
    : element evaluator (.pattern (.one operator.level.marks)) (operator.mark :: rest)
        = .ok (some ⟨[operator.mark], [.text operator.mark]⟩) := by
  rw [element_terminal (by simp), List.head?_cons, if_pos (accepts_mark operator)]
  rfl

theorem numberValue_of_readInteger {token : String} {n : Int}
    (h : Numeral.readInteger token = .ok n)
    : numberValue (.list [.text token]) = .ok (.int n) := by
  have hitem : (Node.list [.text token]).item 0 = .ok (.text token) := rfl
  unfold numberValue
  simp only [hitem, bind, Except.bind, h]
  rfl

theorem gives_number {token : String} {n : Int} (hnumber : IsNumber token)
    (hvalue : Numeral.readInteger token = .ok n) (rest : List String)
    : ranked.Gives .number (token :: rest) [token] (.int n) := by
  apply Ranked.answers_of_choose
  intro depth _
  have helement : element (ranked.evaluate depth) (.pattern (.rounds .greedy 1 none (.one digits)))
      (token :: rest) = .ok (some ⟨[token], [.text token]⟩) := by
    rw [element_terminal (by simp), List.head?_cons, if_pos (accepts_digits.mpr hnumber)]
    rfl
  rw [choose_eq]
  simp only [Symbol.production, Production.onNode]
  rw [choice, series_singleton, helement]
  dsimp only
  rw [numberValue_of_readInteger hvalue]
  rfl

theorem IsNumber.ne {token : String} (h : IsNumber token) {c : Char} (hc : Text.isDigit c = false)
    : token ≠ String.ofList [c] := by
  rintro rfl
  have := h.2 c (by simp)
  rw [hc] at this
  cases this

theorem gives_factor_of_number {token : String} {n : Int} (hnumber : IsNumber token)
    (hvalue : Numeral.readInteger token = .ok n) (rest : List String)
    : ranked.Gives .factor (token :: rest) [token] (.int n) := by
  apply Ranked.answers_of_choose
  intro depth hdepth
  have hbracket : token ≠ "(" := hnumber.ne (by decide)
  have hminus : token ≠ "-" := hnumber.ne (by decide)
  have hreference := element_symbol (gives_number hnumber hvalue rest)
    (Ranked.need_of_rank (by decide) hdepth)
  rw [choose_eq]
  simp only [Symbol.production, Production.onNode]
  rw [choice, series, element_literal_ne _ (by simpa using hbracket)]
  dsimp only
  rw [choice, series, element_literal_ne _ (by simpa using hminus)]
  dsimp only
  rw [choice, series_singleton, hreference]
  rfl

theorem gives_factor_of_opposite {tokens taken : List String} {n : Int}
    (h : ranked.Gives .factor tokens taken (.int n))
    : ranked.Gives .factor ("-" :: tokens) ("-" :: taken) (.int (-n)) := by
  apply Ranked.answers_of_choose
  intro depth hdepth
  have hminus := element_literal (ranked.evaluate depth) "-" tokens
  have hreference := element_symbol h (Ranked.need_of_lt (by simp) hdepth)
  rw [choose_eq]
  simp only [Symbol.production, Production.onNode]
  rw [choice, series, element_literal_ne _ (by simp)]
  dsimp only
  rw [choice, series_cons_token hminus, series_singleton, hreference]
  rfl

theorem gives_factor_of_brackets {taken rest : List String} {n : Int} (hne : taken ≠ [])
    (h : ranked.Gives (.whole .sum) (taken ++ ")" :: rest) taken (.int n))
    : ranked.Gives .factor ("(" :: (taken ++ ")" :: rest)) ("(" :: (taken ++ [")"])) (.int n) := by
  apply Ranked.answers_of_choose
  intro depth hdepth
  have hopening := element_literal (ranked.evaluate depth) "(" (taken ++ ")" :: rest)
  have hclosing := element_literal (ranked.evaluate depth) ")" rest
  have hreference := element_symbol h (Ranked.need_of_lt (by simp) hdepth)
  rw [choose_eq]
  simp only [Symbol.production, Production.onNode]
  rw [choice, series_cons_token hopening, series_cons hreference rfl hne,
    series_singleton, hclosing]
  rfl

theorem gives_whole {level : Level} {tokens taken : List String} {items : List Value} {result : Value}
    (h : ranked.Gives (.chain level) tokens taken (.list items)) (hvalue : chainValue items = .ok result)
    : ranked.Gives (.whole level) tokens taken result := by
  apply Ranked.answers_of_choose
  intro depth hdepth
  have haction : chainItemValue (.list [.list items]) = .ok result := hvalue
  have hreference := element_symbol h (Ranked.need_of_rank (rank_chain level) hdepth)
  rw [choose_eq]
  simp only [Symbol.production, Production.onNode]
  rw [choice, series_singleton, hreference]
  dsimp only
  rw [haction]
  rfl

theorem gives_start {tokens taken : List String} {result : Value}
    (h : ranked.Gives (.whole .sum) tokens taken result)
    : ranked.Gives .start tokens taken result := by
  apply Ranked.answers_of_choose
  intro depth hdepth
  have hreference := element_symbol h (Ranked.need_of_rank (by decide) hdepth)
  rw [choose_eq]
  simp only [Symbol.production, Production.onNode]
  rw [choice, series_singleton, hreference]
  rfl

theorem gives_chain_single {level : Level} {taken rest : List String} {operand : Value}
    (hne : taken ≠ []) (hrest : ∀ operator : Operator, operator.level = level →
      rest.head? ≠ some operator.mark)
    (h : ranked.Gives level.operand.symbol (taken ++ rest) taken operand)
    : ranked.Gives (.chain level) (taken ++ rest) taken (.list [operand]) := by
  apply Ranked.answers_of_choose
  intro depth hdepth
  have hreference := element_symbol h (Ranked.need_of_rank (rank_operand level) hdepth)
  have hmark : element (ranked.evaluate depth) (.pattern (.one level.marks)) rest = .ok none := by
    rw [element_terminal (by simp), if_neg]
    intro haccepts
    cases hhead : rest.head? with
    | none =>
      rw [hhead] at haccepts
      cases level with
      | _ => exact absurd haccepts (by decide)
    | some token =>
      rw [hhead] at haccepts
      rcases accepts_marks haccepts with ⟨operator, hlevel, rfl⟩
      exact hrest operator hlevel hhead
  rw [choose_eq]
  simp only [Symbol.production, Production.onNode]
  rw [choice, series_cons hreference rfl hne, series, hmark]
  dsimp only [Except.map, Option.map]
  rw [choice, series_singleton, hreference]
  rfl

theorem gives_chain_cons {operator : Operator} {taken others rest : List String} {operand : Value}
    {items : List Value} (hne : taken ≠ [])
    (h : ranked.Gives operator.level.operand.symbol (taken ++ operator.mark :: rest) taken operand)
    (hothers : ranked.Gives (.chain operator.level) rest others (.list items))
    : ranked.Gives (.chain operator.level) (taken ++ operator.mark :: rest) (taken ++ operator.mark :: others)
        (.list (operand :: .text operator.mark :: items)) := by
  apply Ranked.answers_of_choose
  intro depth hdepth
  have hreference := element_symbol h (Ranked.need_of_rank (rank_operand operator.level) hdepth)
  have hmark := element_mark (ranked.evaluate depth) operator rest
  have hchain := element_symbol hothers (Ranked.need_of_lt (by simp; omega) hdepth)
  rw [choose_eq]
  simp only [Symbol.production, Production.onNode]
  rw [choice, series_cons hreference rfl hne, series_cons_token hmark, series_singleton,
    hchain]
  rfl

/--
What a chain goes on with behind an operand: nothing, as no operator follows that binds its operand, or an
operator with a chain.
-/
inductive Tail (level : Level) : List String → List String → List Value → Prop where
  | done {rest} (h : ∀ operator : Operator, operator.level = level ∨ level = .sum →
      rest.head? ≠ some operator.mark)
      : Tail level rest [] []
  | more {rest taken items} (operator : Operator) (hlevel : operator.level = level)
      (h : ranked.Gives (.chain level) rest taken (.list items))
      : Tail level (operator.mark :: rest) (operator.mark :: taken) (.text operator.mark :: items)

/--
A phrase that denotes an integer is found in front of whatever may follow it. A chain goes on with its
tail.
-/
def Found (phrase : Phrase) (tokens : List String) (n : Int) : Prop :=
  match phrase with
  | .factor => ∀ rest, ranked.Gives .factor (tokens ++ rest) tokens (.int n)
  | .chain level => ∀ rest taken items, Tail level rest taken items →
    ∃ items', ranked.Gives (.chain level) (tokens ++ rest) (tokens ++ taken) (.list items')
      ∧ chainValue items' = applyChain (.int n) items

theorem gives_chain {level : Level} {tokens rest taken : List String} {operand : Value}
    {items : List Value} (hne : tokens ≠ [])
    (h : ranked.Gives level.operand.symbol (tokens ++ rest) tokens operand)
    (htail : Tail level rest taken items)
    : ranked.Gives (.chain level) (tokens ++ rest) (tokens ++ taken) (.list (operand :: items)) := by
  cases htail with
  | done hrest =>
    rw [List.append_nil]
    exact gives_chain_single hne (fun operator hlevel => hrest operator (.inl hlevel)) h
  | more operator hlevel hothers =>
    subst hlevel
    exact gives_chain_cons hne h hothers

theorem Tail.of_sum {rest taken : List String} {items : List Value} (h : Tail .sum rest taken items)
    : Tail .product rest [] [] := by
  apply Tail.done
  intro operator hlevel
  cases h with
  | done hrest => exact hrest operator (.inr rfl)
  | more other hother _ =>
    cases operator with
    | _ =>
      cases other with
      | _ => simp_all [Operator.mark, Operator.level]

theorem Found.gives_whole {level : Level} {tokens rest : List String} {n : Int}
    (h : Found (.chain level) tokens n) (htail : Tail level rest [] [])
    : ranked.Gives (.whole level) (tokens ++ rest) tokens (.int n) := by
  rcases h rest [] [] htail with ⟨items, hitems, hvalue⟩
  rw [List.append_nil] at hitems
  exact Calculator.gives_whole hitems hvalue

theorem Found.gives_operand {level : Level} {tokens rest taken : List String} {items : List Value}
    {n : Int} (h : Found level.operand tokens n) (htail : Tail level rest taken items)
    : ranked.Gives level.operand.symbol (tokens ++ rest) tokens (.int n) := by
  cases level with
  | product => exact h rest
  | sum => exact Found.gives_whole h htail.of_sum

theorem Found.operand {level : Level} {tokens : List String} {n : Int} (hne : tokens ≠ [])
    (h : Found level.operand tokens n)
    : Found (.chain level) tokens n := by
  intro rest taken items htail
  exact ⟨.int n :: items, gives_chain hne (h.gives_operand htail) htail, rfl⟩

theorem applyTo_of_denote {operator : Operator} {m n result : Int}
    (h : operator.denote m n = some result)
    : applyTo (.int m) (.text operator.mark) (.int n) = .ok (.int result) := by
  cases operator with
  | div => cases h
  | _ =>
    cases h
    rfl

theorem Found.operation {operator : Operator} {left right : List String} {m n result : Int}
    (hne : right ≠ []) (hresult : operator.denote m n = some result)
    (hleft : Found (.chain operator.level) left m) (hright : Found operator.level.operand right n)
    : Found (.chain operator.level) (left ++ operator.mark :: right) result := by
  intro rest taken items htail
  have hchain := gives_chain hne (hright.gives_operand htail) htail
  rcases hleft _ _ _ (.more operator rfl hchain) with ⟨items', hitems, hvalue⟩
  refine ⟨items', ?_, ?_⟩
  . simpa using hitems
  . rw [hvalue, applyChain, applyTo_of_denote hresult]
    rfl

/--
Tokens without a slash, and with numbers that are not too long.
-/
structure Plain (tokens : List String) : Prop where
  division : "/" ∉ tokens
  digits : ∀ token ∈ tokens, IsNumber token → token.length ≤ Numeral.digitLimit

theorem Plain.denote {tokens : List String} (h : Plain tokens) {operator : Operator}
    (hmark : operator.mark ∈ tokens) (m n : Int)
    : ∃ result, operator.denote m n = some result := by
  cases operator with
  | div => exact (h.division hmark).elim
  | _ => exact ⟨_, rfl⟩

theorem found_of_denotes {input tokens : List String} {phrase : Phrase} {value : Option Int}
    (hplain : Plain input) (h : Denotes phrase tokens value) (htokens : ∀ token ∈ tokens, token ∈ input)
    : ∃ n, value = some n ∧ tokens ≠ [] ∧ Found phrase tokens n := by
  -- derivations nest to the left and matches to the right: the left operand of an operation is found
  -- with the operator and the right operand in its tail
  induction h with
  | @number token hnumber =>
    have hlength := hplain.digits token (htokens token (by simp)) hnumber
    have hvalue := Numeral.readInteger_of_isDigit hnumber.1 hnumber.2 hlength
    exact ⟨_, rfl, by simp, gives_factor_of_number hnumber hvalue⟩
  | opposite h ih =>
    rcases ih fun token htoken => htokens token (by simp [htoken]) with ⟨n, rfl, hne, hfound⟩
    exact ⟨-n, rfl, by simp, fun rest => gives_factor_of_opposite (hfound rest)⟩
  | @brackets tokens value h ih =>
    rcases ih fun token htoken => htokens token (by simp [htoken]) with ⟨n, rfl, hne, hfound⟩
    refine ⟨n, rfl, by simp, fun rest => ?_⟩
    have hclosing : Tail .sum (")" :: rest) [] [] := by
      apply Tail.done
      intro operator _
      cases operator with
      | _ => simp [Operator.mark]
    have hbrackets := gives_factor_of_brackets hne (hfound.gives_whole hclosing)
    simpa using hbrackets
  | @operand level tokens value h ih =>
    rcases ih htokens with ⟨n, rfl, hne, hfound⟩
    exact ⟨n, rfl, hne, hfound.operand hne⟩
  | @operation left right m n operator hleft hright ihleft ihright =>
    rcases ihleft fun token htoken => htokens token (by simp [htoken]) with ⟨m, rfl, hne, hfound⟩
    rcases ihright fun token htoken => htokens token (by simp [htoken]) with ⟨n, rfl, hne', hfound'⟩
    rcases hplain.denote (htokens operator.mark (by simp)) m n with ⟨result, hresult⟩
    exact ⟨result, hresult, by simp, .operation hne' hresult hfound hfound'⟩

theorem account_of_plain {input : List String} (hplain : Plain input)
    : Account input (fun phrase tokens n => ∃ m : Int, n = .int m ∧ Denotes phrase tokens (some m))
        (fun _ => False) where
  number := by
    intro token htoken hnumber
    have hvalue := Numeral.readInteger_of_isDigit hnumber.1 hnumber.2
      (hplain.digits token htoken hnumber)
    rw [numberValue_of_readInteger hvalue]
    exact ⟨_, rfl, _, rfl, .number hnumber⟩
  opposite := by
    rintro tokens _ ⟨n, rfl, h⟩
    exact ⟨-n, rfl, h.opposite⟩
  brackets := by
    rintro tokens _ ⟨n, rfl, h⟩
    exact ⟨n, rfl, h.brackets⟩
  operand := by
    rintro level tokens _ ⟨n, rfl, h⟩
    exact ⟨n, rfl, h.operand⟩
  operation := by
    rintro operator left right _ _ hmark ⟨m, rfl, hleft⟩ ⟨n, rfl, hright⟩
    have hdenotes := Denotes.operation operator hleft hright
    rcases hplain.denote hmark m n with ⟨result, hresult⟩
    rw [show Value.number (.int m) = .int m from rfl, show Value.number (.int n) = .int n from rfl,
      applyTo_of_denote hresult]
    refine ⟨_, rfl, result, rfl, ?_⟩
    simpa [hresult] using hdenotes

theorem evaluate_eq (settings : Settings) (text : String)
    : ∃ rule, evaluate settings text
        =
      entire (.notArithmetic text) (tokens text)
        ((ranked.evaluate (settings.nestingLimit (tokens text).length) (ranked.name .start)
          (tokens text)).mapError (Run.reported rule 0)) := by
  have hsplitter : grammar.splitter = .splitting tokens := by
    rw [grammar_eq]
    rfl
  have hrule : grammar.rules.toList.head?
      = some ⟨"calc", ["expr"], [["expr"]], some (.onNode (·.item 0))⟩ := by
    rw [grammar_eq]
    rfl
  have hempty : "" ∉ tokens text := Text.empty_not_mem_lexemes _ _
  have hparse := grammar_pursues.parse_text hsplitter hrule hempty settings #[]
  exact ⟨_, congrArg (entire (.notArithmetic text) (tokens text)) hparse⟩

/--
On texts without quotients and with numbers that are not too long the calculator returns a value where the
tokens are derivable from an expression, namely the integer that the derivation denotes, and it reports a
value error for every other one of these texts.
-/
theorem evaluate_text (settings : Settings) (text : String) (hdivision : "/" ∉ tokens text)
    (hdigits : ∀ token ∈ tokens text, IsNumber token → token.length ≤ Numeral.digitLimit)
    (hlimit : 7 * ((tokens text).length + 1) ≤ settings.nestingLimit (tokens text).length)
    : (∀ value, Denotes (.chain .sum) (tokens text) value →
        ∃ n, value = some n ∧ evaluate settings text = .ok (.int n))
      ∧ ((∀ value, ¬ Denotes (.chain .sum) (tokens text) value) →
        ∃ fault, evaluate settings text = .error fault ∧ fault.kind = .value) := by
  have hplain : Plain (tokens text) := ⟨hdivision, hdigits⟩
  have hdepth : ranked.need .start (tokens text).length ≤ settings.nestingLimit (tokens text).length :=
    hlimit
  rcases evaluate_eq settings text with ⟨rule, hevaluate⟩
  rw [hevaluate]
  constructor
  . intro value hvalue
    rcases found_of_denotes hplain hvalue fun _ h => h with ⟨n, rfl, hne, hfound⟩
    have hend : Tail .sum [] [] [] := .done (by simp)
    have hwhole := hfound.gives_whole hend
    rw [List.append_nil] at hwhole
    rw [gives_start hwhole _ hdepth]
    exact ⟨n, rfl, entire_of_all _ _ _⟩
  . intro hnone
    have hsound := soundAt (account_of_plain hplain) _ .start (tokens text) (fun _ h => h) hdepth
    have hentire := entire_of_consumes hsound (.notArithmetic text) (Run.reported rule 0)
    split at hentire
    . rcases hentire with ⟨_, _, _, n, _, hdenotes⟩
      exact (hnone _ hdenotes).elim
    . next fault hfault =>
      refine ⟨fault, hfault, ?_⟩
      rcases hentire with ⟨_, hfalse, _⟩ | rfl | ⟨taken, rfl⟩
      . exact hfalse.elim
      . rfl
      . rfl

theorem evaluate_text_leftmost
    : "/" ∉ tokens "8 - 3 - 2" ∧ 7 * ((tokens "8 - 3 - 2").length + 1) ≤ 1000
      ∧ evaluate {} "8 - 3 - 2" = .ok (.int 3) := by
  have htokens : tokens "8 - 3 - 2" = (["8"] ++ "-" :: ["3"]) ++ "-" :: ["2"] := by decide +kernel
  have hdivision : "/" ∉ tokens "8 - 3 - 2" := by
    rw [htokens]
    decide
  have hdigits : ∀ token ∈ tokens "8 - 3 - 2", IsNumber token →
      token.length ≤ Numeral.digitLimit := by
    rw [htokens]
    decide
  have hlimit : 7 * ((tokens "8 - 3 - 2").length + 1)
      ≤ ({} : Settings).nestingLimit (tokens "8 - 3 - 2").length := by
    rw [htokens]
    decide
  have hdenotes : Denotes (.chain .sum) (tokens "8 - 3 - 2") (some 3) := by
    have hnumber (token : String) (h : IsNumber token)
        : Denotes (.chain .product) [token] (some (Numeral.decimal token)) := .operand (.number h)
    rw [htokens]
    exact .operation .sub (.operation .sub (.operand (hnumber "8" (by decide)))
      (hnumber "3" (by decide))) (hnumber "2" (by decide))
  refine ⟨hdivision, by rw [htokens]; decide, ?_⟩
  rcases (evaluate_text {} "8 - 3 - 2" hdivision hdigits hlimit).1 _ hdenotes with ⟨n, hn, hvalue⟩
  cases hn
  exact hvalue

end Calculator
end TokenGrammar
