import TokenGrammar.Proofs.Calculator.Exactness

/-!
This module contains the errors of the calculator. Whatever the text, a number comes of it, or an error that
tells of a number that is too long, of a calculation that has no result, or of tokens that do not make up an
expression. Calculations count that belong to an option which fails later on.
-/

namespace TokenGrammar
namespace Calculator

open Evaluation

/--
The error is one of reading a number or of calculating with numbers.
-/
def Incalculable (fault : Fault) : Prop :=
  fault.kind = .value ∨ fault.kind = .zeroDivision ∨ fault.kind = .overflow

theorem incalculable_arithmetic (fault : ArithmeticFault) : Incalculable (.arithmetic fault) := by
  cases fault with
  | divisionByZero => exact .inr (.inl rfl)
  | floatDivisionByZero => exact .inr (.inl rfl)
  | quotientTooLarge => exact .inr (.inr rfl)
  | integerTooLarge => exact .inr (.inr rfl)

theorem settled_numberValue {holds : Number → Prop} (hholds : ∀ n, holds n) (token : String)
    : Settled holds Incalculable (numberValue (.list [.text token])) := by
  have hitem : (Node.list [.text token]).item 0 = .ok (.text token) := rfl
  unfold numberValue
  simp only [hitem, bind, Except.bind]
  cases Numeral.readInteger token with
  | ok n => exact ⟨.int n, rfl, hholds (.int n)⟩
  | error fault => exact .inl rfl

theorem settled_applyTo {holds : Number → Prop} (hholds : ∀ n, holds n) (operator : Operator)
    (m n : Number)
    : Settled holds Incalculable (applyTo (.number m) (.text operator.mark) (.number n)) := by
  have hoperator : Operator.ofToken? operator.mark = some operator := by
    cases operator with
    | _ => rfl
  unfold applyTo
  simp only [Value.text?, Option.bind_some, hoperator, number, bind, Except.bind]
  cases operator.apply m n with
  | ok result => exact ⟨result, rfl, hholds result⟩
  | error fault => exact incalculable_arithmetic fault

/--
Nothing has to be known of the numbers to rule out other errors.
-/
theorem account_of_any (input : List String) : Account input (fun _ _ _ => True) Incalculable where
  number token _ _ := settled_numberValue (fun _ => trivial) token
  opposite _ _ _ := trivial
  brackets _ _ _ := trivial
  operand _ _ _ _ := trivial
  operation operator _ _ m n _ _ _ := settled_applyTo (fun _ => trivial) operator m n

/--
The calculator returns a number, or it reports a value error, a division by zero or an overflow.
-/
theorem evaluate_outcome (settings : Settings) (text : String)
    (hlimit : 7 * ((tokens text).length + 1) ≤ settings.nestingLimit (tokens text).length)
    : (∃ n, evaluate settings text = .ok (.number n))
      ∨ ∃ fault, evaluate settings text = .error fault
        ∧ (fault.kind = .value ∨ fault.kind = .zeroDivision ∨ fault.kind = .overflow) := by
  have hdepth : ranked.need .start (tokens text).length ≤ settings.nestingLimit (tokens text).length :=
    hlimit
  rcases evaluate_eq settings text with ⟨rule, hevaluate⟩
  have hsound := soundAt (account_of_any (tokens text)) _ .start (tokens text) (fun _ h => h) hdepth
  have hexhausted : ¬ Incalculable .exhausted := by simp [Incalculable, Fault.kind]
  rw [hevaluate]
  rcases entire_outcome hsound hexhausted (.notArithmetic text) rule 0 with
    ⟨value, hvalue, _, n, rfl, _⟩ | ⟨fault, hfault, hcause⟩
  . exact .inl ⟨n, hvalue⟩
  . refine .inr ⟨fault, hfault, ?_⟩
    rcases hcause with hincalculable | rfl | ⟨taken, rfl⟩
    . exact hincalculable
    . exact .inl rfl
    . exact .inl rfl

/--
A quotient is calculated where it is met, although the bracket in front of it is never closed.
-/
theorem evaluate_outcome_discarded
    : 7 * ((tokens "(1 / 0").length + 1) ≤ ({} : Settings).nestingLimit (tokens "(1 / 0").length
      ∧ ∃ fault, evaluate {} "(1 / 0" = .error fault ∧ fault.kind = .zeroDivision
        ∧ (fault.kind = .value ∨ fault.kind = .zeroDivision ∨ fault.kind = .overflow) := by
  have hlimit : 7 * ((tokens "(1 / 0").length + 1)
      ≤ ({} : Settings).nestingLimit (tokens "(1 / 0").length := by decide +kernel
  have hkind : ((evaluate {} "(1 / 0").mapError Fault.kind).map (fun _ => ()) = .error .zeroDivision := by
    decide +kernel
  rcases evaluate_outcome {} "(1 / 0" hlimit with ⟨n, hvalue⟩ | ⟨fault, hfault, houtcome⟩
  . rw [hvalue] at hkind
    cases hkind
  . rw [hfault] at hkind
    exact ⟨hlimit, fault, hfault, Except.error.inj hkind, houtcome⟩

end Calculator
end TokenGrammar
