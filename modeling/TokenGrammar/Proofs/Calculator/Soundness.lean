import TokenGrammar.Proofs.Calculator.Denotation

/-!
This module contains what the rules of the calculator come to, whatever is to be known of the numbers:
from what holds of single numbers and of single operations follows what holds of expressions. Limits of
seven levels a token are never used up.
-/

namespace TokenGrammar
namespace Calculator

open Evaluation

theorem contains_marks {level : Level} {c : Char} (h : level.marks.contains c = true)
    : ∃ operator : Operator, operator.level = level ∧ String.ofList [c] = operator.mark := by
  simp only [Level.marks, Pattern.CharSet.contains, Pattern.ClassItem.contains,
    Pattern.Folding.variants] at h
  cases level with
  | sum =>
    have hcode : c.toNat = '+'.toNat ∨ c.toNat = '-'.toNat := by
      simp at h
      simp
      omega
    rw [Char.toNat_inj, Char.toNat_inj] at hcode
    rcases hcode with rfl | rfl
    . exact ⟨.add, rfl, rfl⟩
    . exact ⟨.sub, rfl, rfl⟩
  | product =>
    have hcode : c.toNat = '*'.toNat ∨ c.toNat = '/'.toNat := by
      simp at h
      simp
      omega
    rw [Char.toNat_inj, Char.toNat_inj] at hcode
    rcases hcode with rfl | rfl
    . exact ⟨.mul, rfl, rfl⟩
    . exact ⟨.div, rfl, rfl⟩

theorem accepts_marks {level : Level} {token : String}
    (h : (Element.pattern (.one level.marks)).accepts (some token) = true)
    : ∃ operator : Operator, operator.level = level ∧ token = operator.mark := by
  have hmatches : (Pattern.Regex.one level.marks).matchesWhole token = true := h
  rcases (Pattern.matchesWhole_one _ _).mp hmatches with ⟨c, hc, hcontains⟩
  have htoken : token = String.ofList [c] := by rw [← hc, String.ofList_toList]
  rw [htoken]
  exact contains_marks hcontains

theorem accepts_mark (operator : Operator)
    : (Element.pattern (.one operator.level.marks)).accepts (some operator.mark) = true := by
  cases operator with
  | _ => decide

theorem accepts_digits {token : String}
    : (Element.pattern (.rounds .greedy 1 none (.one digits))).accepts (some token) = true
        ↔
      IsNumber token := by
  show (Pattern.Regex.rounds .greedy 1 none (.one digits)).matchesWhole token = true ↔ _
  rw [Pattern.matchesWhole_rounds_one]
  unfold IsNumber
  simp [digits, Pattern.CharSet.contains, Pattern.ClassItem.contains, Pattern.Category.contains]

/--
An action returns a number that satisfies `holds`, or it fails with an error that satisfies `failing`.
-/
def Settled (holds : Number → Prop) (failing : Fault → Prop) : Except Fault Value → Prop
  | .ok value => ∃ n, value = .number n ∧ holds n
  | .error fault => failing fault

theorem Settled.bind {holds mid : Number → Prop} {failing : Fault → Prop} {answer : Except Fault Value}
    {f : Value → Except Fault Value} (h : Settled mid failing answer)
    (hf : ∀ n, mid n → Settled holds failing (f (.number n)))
    : Settled holds failing (answer >>= f) := by
  cases answer with
  | error fault => exact h
  | ok value =>
    rcases h with ⟨n, rfl, hn⟩
    exact hf n hn

/--
An account of what numbers the tokens of phrases come to, and of the errors on the way, as long as the
tokens are among the given ones.
-/
structure Account (input : List String) (holds : Phrase → List String → Number → Prop)
    (failing : Fault → Prop) : Prop where
  number : ∀ token ∈ input, IsNumber token →
    Settled (holds .factor [token]) failing (numberValue (.list [.text token]))
  opposite : ∀ tokens n, holds .factor tokens n → holds .factor ("-" :: tokens) n.neg
  brackets : ∀ tokens n, holds (.chain .sum) tokens n → holds .factor ("(" :: (tokens ++ [")"])) n
  operand : ∀ level tokens n, holds level.operand tokens n → holds (.chain level) tokens n
  operation : ∀ (operator : Operator) left right m n, operator.mark ∈ input →
    holds (.chain operator.level) left m → holds operator.level.operand right n →
    Settled (holds (.chain operator.level) (left ++ operator.mark :: right)) failing
      (applyTo (.number m) (.text operator.mark) (.number n))

theorem rank_operand (level : Level) : level.operand.symbol.rank < (Symbol.chain level).rank := by
  cases level with
  | _ => decide

theorem rank_chain (level : Level) : (Symbol.chain level).rank < (Symbol.whole level).rank := by
  cases level with
  | _ => decide

/--
What a list of operands and operators comes to, by itself and behind an operand and an operator.
-/
structure ChainSettled (input : List String) (holds : Phrase → List String → Number → Prop)
    (failing : Fault → Prop) (level : Level) (tokens : List String) (items : List Value) : Prop where
  alone : Settled (holds (.chain level) tokens) failing (chainValue items)
  behind : ∀ (operator : Operator) left m, operator.level = level → operator.mark ∈ input →
    holds (.chain level) left m →
    Settled (holds (.chain level) (left ++ operator.mark :: tokens)) failing
      (applyChain (.number m) (.text operator.mark :: items))

def Symbol.Means (input : List String) (holds : Phrase → List String → Number → Prop)
    (failing : Fault → Prop) (symbol : Symbol) (tokens : List String) (result : Value) : Prop :=
  match symbol with
  | .start => ∃ n, result = .number n ∧ holds (.chain .sum) tokens n
  | .whole level => ∃ n, result = .number n ∧ holds (.chain level) tokens n
  | .chain level => ∃ items, result = .list items ∧ ChainSettled input holds failing level tokens items
  | .factor | .number => ∃ n, result = .number n ∧ holds .factor tokens n

variable {input : List String} {holds : Phrase → List String → Number → Prop}
  {failing : Fault → Prop}

theorem Account.chain_single (h : Account input holds failing) {level : Level} {tokens : List String}
    {n : Number} (hoperand : holds level.operand tokens n)
    : ChainSettled input holds failing level tokens [.number n] where
  alone := ⟨n, rfl, h.operand level tokens n hoperand⟩
  behind := by
    rintro operator left m rfl hmark hleft
    rw [applyChain]
    apply (h.operation operator left tokens m n hmark hleft hoperand).bind
    intro result hresult
    exact ⟨result, rfl, hresult⟩

theorem Account.chain_cons (h : Account input holds failing) {operator : Operator}
    {tokens rest : List String} {n : Number} {items : List Value} (hmark : operator.mark ∈ input)
    (hoperand : holds operator.level.operand tokens n)
    (hrest : ChainSettled input holds failing operator.level rest items)
    : ChainSettled input holds failing operator.level (tokens ++ operator.mark :: rest)
        (.number n :: .text operator.mark :: items) where
  alone := hrest.behind operator tokens n rfl hmark (h.operand _ tokens n hoperand)
  behind := by
    intro before left m hlevel hbefore hleft
    rw [applyChain]
    rw [← hlevel] at hleft hoperand hrest ⊢
    apply (h.operation before left tokens m n hbefore hleft hoperand).bind
    intro result hresult
    have hbehind := hrest.behind operator (left ++ before.mark :: tokens) result hlevel.symm hmark hresult
    rw [List.append_assoc] at hbehind
    exact hbehind

theorem Settled.becomes {phrase : Phrase} {action : List Value → Except Fault Value} {piece : Piece}
    (h : Settled (holds phrase piece.tokens) failing (action piece.items)) (hne : piece.tokens ≠ [])
    : piece.Becomes action
        (fun found => found.tokens ≠ [] ∧ ∃ n, found.result = .number n ∧ holds phrase found.tokens n)
        failing := by
  unfold Piece.Becomes
  cases hanswer : action piece.items with
  | error fault =>
    rw [hanswer] at h
    exact h
  | ok value =>
    rw [hanswer] at h
    exact ⟨hne, h⟩

section

variable {depth : Nat} {tokens : List String} (h : Account input holds failing)
  (hsound : ranked.SoundAt (· ∈ input) (Symbol.Means input holds failing) failing depth)
  (htokens : ∀ token ∈ tokens, token ∈ input)

include htokens

theorem mem_input_of_append {piece : Piece} {rest : List String} (hrest : tokens = piece.tokens ++ rest)
    : ∀ token ∈ rest, token ∈ input := by
  intro token htoken
  apply htokens
  rw [hrest]
  exact List.mem_append_right _ htoken

include hsound

theorem chooses_start (hdepth : ranked.need .start tokens.length ≤ depth + 1)
    : ranked.Chooses (Symbol.Means input holds failing) failing depth .start tokens := by
  apply consumes_choice_cons _ consumes_choice_nil
  rw [series_singleton]
  apply (hsound.reference htokens (.whole .sum) (Ranked.need_of_rank (by decide) hdepth)).mono
  rintro ⟨taken, _⟩ ⟨hne, result, rfl, hresult⟩
  exact ⟨hne, hresult⟩

theorem chooses_whole (level : Level) (hdepth : ranked.need (.whole level) tokens.length ≤ depth + 1)
    : ranked.Chooses (Symbol.Means input holds failing) failing depth (.whole level) tokens := by
  apply consumes_choice_cons _ consumes_choice_nil
  rw [series_singleton]
  apply (hsound.reference htokens (.chain level) (Ranked.need_of_rank (rank_chain level) hdepth)).mono
  rintro ⟨taken, _⟩ ⟨hne, _, rfl, items, rfl, hchain⟩
  exact Settled.becomes hchain.alone hne

include h

theorem chooses_chain (level : Level) (hdepth : ranked.need (.chain level) tokens.length ≤ depth + 1)
    : ranked.Chooses (Symbol.Means input holds failing) failing depth (.chain level) tokens := by
  have hneed := Ranked.need_of_rank (rank_operand level) hdepth
  have hoperand : ∀ tokens result,
      level.operand.symbol.Means input holds failing tokens result →
      ∃ n, result = .number n ∧ holds level.operand tokens n := by
    intro tokens result hmeans
    cases level with
    | _ => exact hmeans
  apply consumes_choice_cons
  . apply consumes_series_cons (hsound.reference htokens level.operand.symbol hneed)
    rintro ⟨taken, _⟩ rest hfirst hne ⟨result, rfl, hmeans⟩
    rcases hoperand taken result hmeans with ⟨n, rfl, hn⟩
    have hrest := mem_input_of_append htokens hfirst
    have hmark : Consumes Piece.tokens rest
        (fun piece => piece.tokens ≠ [] ∧ ∃ operator : Operator, operator.level = level
          ∧ operator.mark ∈ input ∧ piece = ⟨[operator.mark], [.text operator.mark]⟩)
        failing (element (ranked.evaluate depth) (.pattern (.one level.marks)) rest) := by
      apply consumes_terminal (by simp)
      . cases level with
        | _ => decide
      . rintro token others rfl haccepts
        rcases accepts_marks haccepts with ⟨operator, hlevel, rfl⟩
        exact ⟨operator, hlevel, hrest _ List.mem_cons_self, rfl⟩
    apply consumes_series_cons hmark
    rintro _ others rfl _ ⟨operator, rfl, hinput, rfl⟩
    have hothers : ∀ token ∈ others, token ∈ input :=
      fun token htoken => hrest token (List.mem_cons_of_mem _ htoken)
    have hless : ranked.need (.chain operator.level) others.length ≤ depth := by
      apply Ranked.need_of_lt _ hdepth
      simp only [hfirst, List.length_append, List.length_cons]
      omega
    rw [series_singleton]
    apply (hsound.reference hothers (.chain operator.level) hless).mono
    rintro ⟨taken', _⟩ ⟨_, _, rfl, items, rfl, hchain⟩
    exact ⟨by simp [Piece.append], _, rfl, h.chain_cons hinput hn hchain⟩
  . apply consumes_choice_cons _ consumes_choice_nil
    rw [series_singleton]
    apply (hsound.reference htokens level.operand.symbol hneed).mono
    rintro ⟨taken, _⟩ ⟨hne, result, rfl, hmeans⟩
    rcases hoperand taken result hmeans with ⟨n, rfl, hn⟩
    exact ⟨hne, [.number n], rfl, h.chain_single hn⟩

theorem chooses_factor (hdepth : ranked.need .factor tokens.length ≤ depth + 1)
    : ranked.Chooses (Symbol.Means input holds failing) failing depth .factor tokens := by
  have hless {piece : Piece} {rest : List String} (hrest : tokens = piece.tokens ++ rest)
      (hne : piece.tokens ≠ []) (symbol : Symbol) : ranked.need symbol rest.length ≤ depth := by
    apply Ranked.need_of_lt _ hdepth
    have := List.length_pos_iff.mpr hne
    rw [hrest, List.length_append]
    omega
  apply consumes_choice_cons
  . apply consumes_series_cons (consumes_literal "(")
    rintro _ rest hfirst hne rfl
    have hrest := mem_input_of_append htokens hfirst
    apply consumes_series_cons
      (hsound.reference hrest (.whole .sum) (hless hfirst hne (.whole .sum)))
    rintro ⟨taken, _⟩ left _ _ ⟨_, rfl, n, rfl, hn⟩
    rw [series_singleton]
    apply (consumes_literal ")").mono
    rintro _ ⟨_, rfl⟩
    exact ⟨by simp [Piece.append], n, rfl, h.brackets taken n hn⟩
  . apply consumes_choice_cons
    . apply consumes_series_cons (consumes_literal "-")
      rintro _ rest hfirst hne rfl
      have hrest := mem_input_of_append htokens hfirst
      rw [series_singleton]
      apply (hsound.reference hrest .factor (hless hfirst hne .factor)).mono
      rintro ⟨taken, _⟩ ⟨_, _, rfl, n, rfl, hn⟩
      exact ⟨by simp [Piece.append], n.neg, rfl, h.opposite taken n hn⟩
    . apply consumes_choice_cons _ consumes_choice_nil
      rw [series_singleton]
      apply (hsound.reference htokens .number (Ranked.need_of_rank (by decide) hdepth)).mono
      rintro ⟨taken, _⟩ ⟨hne, _, rfl, n, rfl, hn⟩
      exact ⟨hne, n, rfl, hn⟩

omit hsound in
theorem chooses_number : ranked.Chooses (Symbol.Means input holds failing) failing depth .number tokens := by
  apply consumes_choice_cons _ consumes_choice_nil
  rw [series_singleton]
  have hdigits : Consumes Piece.tokens tokens
      (fun piece => piece.tokens ≠ [] ∧ ∃ token ∈ input, IsNumber token
        ∧ piece = ⟨[token], [.text token]⟩)
      failing
      (element (ranked.evaluate depth) (.pattern (.rounds .greedy 1 none (.one digits))) tokens) := by
    apply consumes_terminal (by simp) (by decide +kernel)
    rintro token others rfl haccepts
    exact ⟨token, htokens token List.mem_cons_self, accepts_digits.mp haccepts, rfl⟩
  apply hdigits.mono
  rintro _ ⟨hne, token, hinput, hnumber, rfl⟩
  exact Settled.becomes (h.number token hinput hnumber) hne

omit hsound htokens

/--
With enough levels every rule has the meaning that the account gives to it.
-/
theorem soundAt (depth : Nat)
    : ranked.SoundAt (· ∈ input) (Symbol.Means input holds failing) failing depth := by
  apply Ranked.soundAt
  intro depth hsound symbol tokens htokens hdepth
  cases symbol with
  | start => exact chooses_start hsound htokens hdepth
  | whole level => exact chooses_whole hsound htokens level hdepth
  | chain level => exact chooses_chain h hsound htokens level hdepth
  | factor => exact chooses_factor h hsound htokens hdepth
  | number => exact chooses_number h htokens

end

end Calculator
end TokenGrammar
