import TokenGrammar.Proofs.Evaluation

/-!
This module contains rules for statements about evaluations: what an evaluation takes is a beginning of
the tokens with a property, and the errors that it ends with have one. Where the rules of a grammar have
ranks that fall from reference to reference until a token is consumed, so many levels a token are enough.
-/

namespace TokenGrammar
namespace Evaluation

/--
What is taken if anything is stands at the front of the tokens and satisfies `holds`, and an error
satisfies `failing`.
-/
def Consumes {α : Type} (taken : α → List String) (tokens : List String) (holds : α → Prop)
    (failing : Fault → Prop) : Except Fault (Option α) → Prop
  | .ok none => True
  | .ok (some a) => ∃ rest, tokens = taken a ++ rest ∧ holds a
  | .error fault => failing fault

/--
What an action makes of a piece satisfies `holds`, and an error that it fails with satisfies `failing`.
-/
def Piece.Becomes (action : List Value → Except Fault Value) (holds : Match → Prop)
    (failing : Fault → Prop) (piece : Piece) : Prop :=
  match action piece.items with
  | .ok result => holds ⟨piece.tokens, result⟩
  | .error fault => failing fault

section

variable {evaluator : Evaluator} {tokens : List String} {failing : Fault → Prop}

theorem Consumes.mono {α : Type} {taken : α → List String} {holds holds' : α → Prop}
    {answer : Except Fault (Option α)} (h : Consumes taken tokens holds' failing answer)
    (hholds : ∀ a, holds' a → holds a)
    : Consumes taken tokens holds failing answer := by
  unfold Consumes at *
  split at h
  . trivial
  . rcases h with ⟨rest, htokens, h⟩
    exact ⟨rest, htokens, hholds _ h⟩
  . exact h

theorem consumes_reference {name : String} {holds : Piece → Prop}
    (h : Consumes Match.tokens tokens
      (fun found => found.tokens ≠ [] ∧ holds ⟨found.tokens, [found.result]⟩) failing
      (evaluator name tokens))
    : Consumes Piece.tokens tokens (fun piece => piece.tokens ≠ [] ∧ holds piece) failing
        (element evaluator (.reference name) tokens) := by
  rw [element]
  cases hanswer : evaluator name tokens with
  | error fault =>
    rw [hanswer] at h
    exact h
  | ok found =>
    rw [hanswer] at h
    cases found with
    | none => trivial
    | some found => exact h

theorem consumes_terminal {terminal : TokenGrammar.Element} {holds : Piece → Prop}
    (hterminal : ∀ name, terminal ≠ .reference name) (hnone : terminal.accepts none = false)
    (h : ∀ token rest, tokens = token :: rest → terminal.accepts (some token) = true →
      holds ⟨[token], [.text token]⟩)
    : Consumes Piece.tokens tokens (fun piece => piece.tokens ≠ [] ∧ holds piece) failing
        (element evaluator terminal tokens) := by
  rw [element_terminal hterminal]
  cases tokens with
  | nil =>
    rw [List.head?_nil, if_neg (by simp [hnone])]
    trivial
  | cons token rest =>
    rw [List.head?_cons]
    split
    . next haccepts => exact ⟨rest, rfl, by simp, h token rest rfl haccepts⟩
    . trivial

theorem consumes_literal (text : String)
    : Consumes Piece.tokens tokens (fun piece => piece.tokens ≠ [] ∧ piece = ⟨[text], [.text text]⟩)
        failing (element evaluator (.literal text) tokens) := by
  apply consumes_terminal (by simp) rfl
  intro token others _ haccepts
  have htoken : token = text := by simpa [Element.accepts] using haccepts
  rw [htoken]

theorem consumes_series_cons {first : TokenGrammar.Element} {others : List TokenGrammar.Element}
    {mid holds : Piece → Prop}
    (hfirst : Consumes Piece.tokens tokens (fun piece => piece.tokens ≠ [] ∧ mid piece) failing
      (element evaluator first tokens))
    (hothers : ∀ piece rest, tokens = piece.tokens ++ rest → piece.tokens ≠ [] → mid piece →
      Consumes Piece.tokens rest (fun later => holds (piece.append later)) failing
        (series evaluator others rest))
    : Consumes Piece.tokens tokens holds failing (series evaluator (first :: others) tokens) := by
  cases hanswer : element evaluator first tokens with
  | error fault =>
    rw [hanswer] at hfirst
    rw [series, hanswer]
    exact hfirst
  | ok piece =>
    rw [hanswer] at hfirst
    cases piece with
    | none =>
      rw [series, hanswer]
      trivial
    | some piece =>
      rcases hfirst with ⟨rest, htokens, hne, hmid⟩
      have hlater := hothers piece rest htokens hne hmid
      rw [series_cons hanswer htokens hne]
      cases hanswer : series evaluator others rest with
      | error fault =>
        rw [hanswer] at hlater
        exact hlater
      | ok later =>
        rw [hanswer] at hlater
        cases later with
        | none => trivial
        | some later =>
          rcases hlater with ⟨rest', hrest, hlater⟩
          refine ⟨rest', ?_, hlater⟩
          rw [htokens, hrest, Piece.append, List.append_assoc]

theorem consumes_choice_nil {action : List Value → Except Fault Value} {holds : Match → Prop}
    : Consumes Match.tokens tokens holds failing (choice evaluator action [] tokens) :=
  trivial

theorem consumes_choice_cons {action : List Value → Except Fault Value} {holds : Match → Prop}
    {option : List TokenGrammar.Element} {options : List (List TokenGrammar.Element)}
    (hoption : Consumes Piece.tokens tokens (Piece.Becomes action holds failing) failing
      (series evaluator option tokens))
    (hoptions : Consumes Match.tokens tokens holds failing (choice evaluator action options tokens))
    : Consumes Match.tokens tokens holds failing
        (choice evaluator action (option :: options) tokens) := by
  rw [choice]
  cases hanswer : series evaluator option tokens with
  | error fault =>
    rw [hanswer] at hoption
    exact hoption
  | ok piece =>
    rw [hanswer] at hoption
    cases piece with
    | none => exact hoptions
    | some piece =>
      rcases hoption with ⟨rest, htokens, hbecomes⟩
      unfold Piece.Becomes at hbecomes
      dsimp only
      cases hresult : action piece.items with
      | error fault =>
        rw [hresult] at hbecomes
        exact hbecomes
      | ok result =>
        rw [hresult] at hbecomes
        exact ⟨rest, htokens, hbecomes⟩

theorem consumes_choice_references {action : List Value → Except Fault Value} {holds : Match → Prop}
    {names : List String} (haction : ∀ result, action [result] = .ok result)
    (h : ∀ name ∈ names, Consumes Match.tokens tokens holds failing (evaluator name tokens))
    : Consumes Match.tokens tokens holds failing
        (choice evaluator action (names.map fun name => [.reference name]) tokens) := by
  induction names with
  | nil => trivial
  | cons name names ih =>
    have hname := h name List.mem_cons_self
    rw [List.map_cons, choice_reference_cons haction]
    cases hanswer : evaluator name tokens with
    | error fault =>
      rw [hanswer] at hname
      exact hname
    | ok found? =>
      rw [hanswer] at hname
      cases found? with
      | none => exact ih fun name hname => h name (List.mem_cons_of_mem _ hname)
      | some found => exact hname

end

/--
The result of a match that takes all of the tokens.
-/
def entire (missing : Fault) (tokens : List String) (answer : Except Fault (Option Match))
    : Except Fault Value := do
  match ← answer with
  | none => throw missing
  | some found =>
    if found.tokens.length != tokens.length then throw (.trailing found.tokens)
    return found.result

theorem entire_of_all (missing : Fault) (tokens : List String) (result : Value)
    : entire missing tokens (.ok (some ⟨tokens, result⟩)) = .ok result := by
  simp [entire, bind, Except.bind, pure, Except.pure]

theorem entire_of_consumes {tokens : List String} {holds : Match → Prop} {failing : Fault → Prop}
    {answer : Except Fault (Option Match)} (h : Consumes Match.tokens tokens holds failing answer)
    (missing : Fault) (report : Fault → Fault)
    : match entire missing tokens (answer.mapError report) with
      | .ok result => holds ⟨tokens, result⟩
      | .error fault => (∃ inner, failing inner ∧ fault = report inner) ∨ fault = missing
        ∨ ∃ taken, fault = .trailing taken := by
  cases answer with
  | error fault => exact .inl ⟨fault, h, rfl⟩
  | ok found =>
    cases found with
    | none => exact .inr (.inl rfl)
    | some found =>
      rcases h with ⟨rest, htokens, hholds⟩
      by_cases hlength : found.tokens.length = tokens.length
      . rw [htokens, List.length_append] at hlength
        have hrest : rest = [] := List.length_eq_zero_iff.mp (by omega)
        rw [hrest, List.append_nil] at htokens
        rcases found with ⟨taken, result⟩
        subst htokens
        rw [Except.mapError, entire_of_all]
        exact hholds
      . have hentire : entire missing tokens ((.ok (some found) : Except Fault (Option Match)).mapError report)
            = .error (.trailing found.tokens) := by
          simp [entire, Except.mapError, bind, Except.bind, throw, throwThe, MonadExceptOf.throw, hlength]
        rw [hentire]
        exact .inr (.inr ⟨found.tokens, rfl⟩)

/--
A match of everything comes to a result, or it fails as rules do, without a match or with tokens left.
-/
theorem entire_outcome {tokens : List String} {holds : Match → Prop} {failing : Fault → Prop}
    {answer : Except Fault (Option Match)} (h : Consumes Match.tokens tokens holds failing answer)
    (hlimit : ¬ failing .exhausted) (missing : Fault) (rule : Rule) (cursor : Int)
    : (∃ result, entire missing tokens (answer.mapError (Run.reported rule cursor)) = .ok result
        ∧ holds ⟨tokens, result⟩)
      ∨ ∃ fault, entire missing tokens (answer.mapError (Run.reported rule cursor)) = .error fault
        ∧ (failing fault ∨ fault = missing ∨ ∃ taken, fault = .trailing taken) := by
  have hentire := entire_of_consumes h missing (Run.reported rule cursor)
  split at hentire
  . next result hresult => exact .inl ⟨result, hresult, hentire⟩
  . next fault hfault =>
    refine .inr ⟨fault, hfault, ?_⟩
    rcases hentire with ⟨inner, hinner, rfl⟩ | hentire
    . have hne : inner ≠ .exhausted := by
        rintro rfl
        exact hlimit hinner
      rw [Run.reported_of_ne hne]
      exact .inl hinner
    . exact .inr hentire

end Evaluation

open Evaluation

/--
Productions for symbols with ranks. A rule refers to rules of lower rank until a token is consumed.
-/
structure Ranked (Symbol : Type) where
  name : Symbol → String
  production : Symbol → Production
  symbols : List Symbol
  rank : Symbol → Nat
  /-- The largest rank, which is the number of levels that a token is good for. -/
  levels : Nat
  rank_pos : ∀ symbol, 0 < rank symbol
  rank_le : ∀ symbol, rank symbol ≤ levels
  lookup : ∀ symbol,
    (symbols.map fun symbol => (name symbol, production symbol)).lookup (name symbol)
      = some (production symbol)

namespace Ranked

variable {Symbol : Type} (ranked : Ranked Symbol)

def productions : Productions :=
  ranked.symbols.map fun symbol => (ranked.name symbol, ranked.production symbol)

def evaluate (depth : Nat) : Evaluator := evaluateAt ranked.productions depth

def choose (depth : Nat) (symbol : Symbol) (tokens : List String) : Except Fault (Option Match) :=
  choice (ranked.evaluate depth) (ranked.production symbol).action (ranked.production symbol).options
    tokens

/--
The number of levels that a rule needs for so many tokens.
-/
def need (symbol : Symbol) (count : Nat) : Nat := ranked.levels * count + ranked.rank symbol

theorem evaluate_succ (depth : Nat) (symbol : Symbol) (tokens : List String)
    : ranked.evaluate (depth + 1) (ranked.name symbol) tokens = ranked.choose depth symbol tokens :=
  evaluateAt_succ (ranked.lookup symbol) depth tokens

variable {ranked} {symbol symbol' : Symbol} {depth : Nat} {tokens : List String}

theorem need_of_rank (h : ranked.rank symbol' < ranked.rank symbol) {count : Nat}
    (hdepth : ranked.need symbol count ≤ depth + 1)
    : ranked.need symbol' count ≤ depth := by
  unfold need at *
  omega

theorem need_of_lt {count count' : Nat} (h : count' < count)
    (hdepth : ranked.need symbol count ≤ depth + 1)
    : ranked.need symbol' count' ≤ depth := by
  -- the token that is gone was good for as many levels as the largest rank
  have hmul : ranked.levels * (count' + 1) ≤ ranked.levels * count := Nat.mul_le_mul_left _ h
  have := ranked.rank_pos symbol
  have := ranked.rank_le symbol'
  rw [Nat.mul_succ] at hmul
  unfold need at *
  omega

theorem pos_of_need {count : Nat} (hdepth : ranked.need symbol count ≤ depth)
    : ∃ lower, depth = lower + 1 := by
  have := ranked.rank_pos symbol
  unfold need at hdepth
  exact ⟨depth - 1, by omega⟩

/--
What a rule takes from known tokens has a meaning if it is evaluated at a depth that is sufficient.
-/
def SoundAt (ranked : Ranked Symbol) (known : String → Prop)
    (means : Symbol → List String → Value → Prop) (failing : Fault → Prop) (depth : Nat) : Prop :=
  ∀ (symbol : Symbol) (tokens : List String), (∀ token ∈ tokens, known token) →
    ranked.need symbol tokens.length ≤ depth →
    Consumes Match.tokens tokens
      (fun found => found.tokens ≠ [] ∧ means symbol found.tokens found.result) failing
      (ranked.evaluate depth (ranked.name symbol) tokens)

def Chooses (ranked : Ranked Symbol) (means : Symbol → List String → Value → Prop)
    (failing : Fault → Prop) (depth : Nat) (symbol : Symbol) (tokens : List String) : Prop :=
  Consumes Match.tokens tokens
    (fun found => found.tokens ≠ [] ∧ means symbol found.tokens found.result) failing
    (ranked.choose depth symbol tokens)

section

variable {known : String → Prop} {means : Symbol → List String → Value → Prop} {failing : Fault → Prop}

theorem SoundAt.reference (h : ranked.SoundAt known means failing depth)
    (htokens : ∀ token ∈ tokens, known token) (symbol : Symbol)
    (hdepth : ranked.need symbol tokens.length ≤ depth)
    : Consumes Piece.tokens tokens
        (fun piece => piece.tokens ≠ []
          ∧ ∃ result, piece.items = [result] ∧ means symbol piece.tokens result)
        failing (element (ranked.evaluate depth) (.reference (ranked.name symbol)) tokens) := by
  apply consumes_reference
  apply (h symbol tokens htokens hdepth).mono
  rintro found ⟨hne, hmeans⟩
  exact ⟨hne, found.result, rfl, hmeans⟩

theorem soundAt
    (hstep : ∀ depth, ranked.SoundAt known means failing depth → ∀ symbol tokens,
      (∀ token ∈ tokens, known token) → ranked.need symbol tokens.length ≤ depth + 1 →
      ranked.Chooses means failing depth symbol tokens)
    (depth : Nat)
    : ranked.SoundAt known means failing depth := by
  induction depth with
  | zero =>
    intro symbol tokens _ hdepth
    rcases pos_of_need hdepth with ⟨lower, hlower⟩
    omega
  | succ depth hsound =>
    intro symbol tokens htokens hdepth
    rw [evaluate_succ]
    exact hstep depth hsound symbol tokens htokens hdepth

end

/--
At every sufficient depth a rule has this answer.
-/
def Answers (ranked : Ranked Symbol) (symbol : Symbol) (tokens : List String) (found? : Option Match)
    : Prop :=
  ∀ depth, ranked.need symbol tokens.length ≤ depth →
    ranked.evaluate depth (ranked.name symbol) tokens = .ok found?

abbrev Gives (ranked : Ranked Symbol) (symbol : Symbol) (tokens taken : List String) (result : Value)
    : Prop :=
  ranked.Answers symbol tokens (some ⟨taken, result⟩)

theorem answers_of_choose {found? : Option Match}
    (h : ∀ depth, ranked.need symbol tokens.length ≤ depth + 1 →
      ranked.choose depth symbol tokens = .ok found?)
    : ranked.Answers symbol tokens found? := by
  intro depth hdepth
  rcases pos_of_need hdepth with ⟨lower, rfl⟩
  rw [evaluate_succ]
  exact h lower hdepth

theorem Answers.reference {taken : List String} {result : Value}
    (h : ranked.Gives symbol tokens taken result) (hdepth : ranked.need symbol tokens.length ≤ depth)
    : element (ranked.evaluate depth) (.reference (ranked.name symbol)) tokens
        = .ok (some ⟨taken, [result]⟩) :=
  element_reference (h depth hdepth)

end Ranked
end TokenGrammar
