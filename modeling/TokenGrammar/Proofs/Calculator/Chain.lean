import TokenGrammar.Proofs.Calculator.Denotation
import TokenGrammar.Value.Sequence

/-!
This module contains the chains of the calculator. The rules nest a chain to the right, and its value is found from
the left. In between it is a list in which operands and operators take turns; its value is the same whether it is
gone through item by item or taken apart to operators and operands first.
-/

namespace TokenGrammar
namespace Calculator

/--
Every other item of a list, the first one among them.
-/
def everyOther {α : Type} : List α → List α
  | [] => []
  | [a] => [a]
  | a :: _ :: rest => a :: everyOther rest

theorem everyOther_cons {α : Type} (a : α) (rest : List α)
    : everyOther (a :: rest) = a :: everyOther rest.tail := by
  cases rest with
  | _ => rfl

theorem filterMap_places (items : List Value) (count place : Nat) (h : items.length ≤ place + count)
    : (Value.Slice.places items.length 2 place count).filterMap (fun place => items[place.toNat]?)
        = everyOther (items.drop place) := by
  induction count generalizing place with
  | zero =>
    rw [List.drop_eq_nil_of_le (by simpa using h)]
    rfl
  | succ count ih =>
    unfold Value.Slice.places
    by_cases hplace : place < items.length
    . have hnext := ih (place + 2) (by omega)
      rw [if_pos (by simpa using hplace), List.filterMap_cons, Int.toNat_natCast,
        List.getElem?_eq_getElem hplace, List.drop_eq_getElem_cons hplace, everyOther_cons, List.tail_drop]
      exact congrArg (_ :: ·) hnext
    . rw [if_neg (by simpa using hplace), List.drop_eq_nil_of_le (Nat.le_of_not_lt hplace)]
      rfl

theorem sliceOf_everyOther (items : List Value) (start : Nat)
    : Value.sliceOf items ⟨some start, none, some 2⟩ = .ok (everyOther (items.drop start)) := by
  have hbound : Value.Slice.bound items.length 0 items.length start = (min items.length start : Nat) := by
    unfold Value.Slice.bound
    split
    . omega
    . omega
  have hdrop : items.drop (min items.length start) = items.drop start := by
    rcases Nat.le_total start items.length with hle | hle
    . rw [Nat.min_eq_right hle]
    . rw [Nat.min_eq_left hle, List.drop_length, List.drop_eq_nil_of_le hle]
  unfold Value.sliceOf
  dsimp only [Option.getD_some, Option.elim_some, Option.elim_none]
  rw [if_neg (by decide), if_neg (by decide), if_neg (by decide)]
  dsimp only
  rw [hbound, filterMap_places items _ _ (Nat.le_add_left _ _), hdrop]

/--
The value of the first item with the operators and operands applied to it that are every other item behind it. They
are taken apart first and put together again in pairs.
-/
def stridedValue (items : List Value) : Except Fault Value := do
  let operators ← Value.sliceOf items ⟨some 1, none, some 2⟩
  let operands ← Value.sliceOf items ⟨some 2, none, some 2⟩
  (operators.zip operands).foldlM (fun value pair => applyTo value pair.1 pair.2) (← Value.itemAt items 0)

theorem applyChain_eq_foldlM (value : Value) (chain : List Value)
    : applyChain value chain = ((everyOther chain).zip (everyOther chain.tail)).foldlM
        (fun value pair => applyTo value pair.1 pair.2) value := by
  fun_induction applyChain value chain with
  | case1 value operator operand chain ih =>
    rw [everyOther_cons, List.tail_cons, List.tail_cons, everyOther_cons, List.zip_cons_cons,
      List.foldlM_cons]
    exact congrArg _ (funext ih)
  | case2 chain value hchain =>
    cases chain with
    | nil => rfl
    | cons operator rest => cases rest with
      | nil => rfl
      | cons operand rest => exact (hchain operator operand rest rfl).elim

/--
Both ways to find the value of a list agree, also where an operator has no operand behind it.
-/
theorem chainValue_eq_stridedValue (items : List Value) : chainValue items = stridedValue items := by
  have hoperators : Value.sliceOf items ⟨some 1, none, some 2⟩ = _ := sliceOf_everyOther items 1
  have hoperands : Value.sliceOf items ⟨some 2, none, some 2⟩ = _ := sliceOf_everyOther items 2
  unfold stridedValue
  rw [hoperators, hoperands]
  cases items with
  | nil => rfl
  | cons first chain =>
    rw [chainValue, applyChain_eq_foldlM, ← List.drop_one]
    rfl

/--
The values of the rules of a chain: the last operand is a chain by itself, and each operand in front of it is put
with its operator in front of the chain behind it.
-/
def nest : Value → List (Operator × Value) → Except Fault Value
  | operand, [] => toChain (.list [operand])
  | operand, (operator, next) :: steps => do
    toChain (.list [operand, .text operator.mark, ← nest next steps])

/--
The operands in their order, with the operators between them.
-/
def alternating (first : Value) (steps : List (Operator × Value)) : List Value :=
  first :: steps.flatMap fun step => [.text step.1.mark, step.2]

/--
Carry out the next operation of a chain.
-/
def applyStep (value : Value) (step : Operator × Value) : Except Fault Value := do
  match step.1.apply (← number value) (← number step.2) with
  | .ok result => .ok (.number result)
  | .error fault => .error (.arithmetic fault)

theorem applyTo_mark (value : Value) (operator : Operator) (operand : Value)
    : applyTo value (.text operator.mark) operand = applyStep value (operator, operand) := by
  cases operator with
  | _ => rfl

theorem nest_eq (first : Value) (steps : List (Operator × Value))
    : nest first steps = .ok (.list (alternating first steps)) := by
  induction steps generalizing first with
  | nil => rfl
  | cons step steps ih =>
    rw [nest, ih]
    rfl

theorem length_alternating (first : Value) (steps : List (Operator × Value))
    : (alternating first steps).length = 2 * (steps.length + 1) - 1 := by
  induction steps generalizing first with
  | nil => rfl
  | cons step steps ih =>
    have hrest := ih step.2
    simp only [alternating, List.flatMap_cons, List.length_cons, List.cons_append, List.nil_append] at hrest ⊢
    omega

theorem getElem?_operand (first : Value) (steps : List (Operator × Value)) (k : Nat)
    : (alternating first steps)[2 * k]? = (first :: steps.map Prod.snd)[k]? := by
  induction steps generalizing first k with
  | nil => cases k with
    | _ => simp [alternating]
  | cons step steps ih => cases k with
    | zero => rfl
    | succ k => exact ih step.2 k

theorem getElem?_operator (first : Value) (steps : List (Operator × Value)) (k : Nat)
    : (alternating first steps)[2 * k + 1]? = (steps.map fun step => Value.text step.1.mark)[k]? := by
  induction steps generalizing first k with
  | nil => simp [alternating]
  | cons step steps ih => cases k with
    | zero => rfl
    | succ k => exact ih step.2 k

theorem chainValue_alternating (first : Value) (steps : List (Operator × Value))
    : chainValue (alternating first steps) = steps.foldlM applyStep first := by
  induction steps generalizing first with
  | nil => rfl
  | cons step steps ih =>
    rw [List.foldlM_cons]
    show applyTo first (.text step.1.mark) step.2 >>= (applyChain · _) = _
    rw [applyTo_mark]
    exact congrArg (applyStep first step >>= ·) (funext ih)

/--
A chain of operations fails where its first operation from the left fails.
-/
theorem foldlM_eq_error {α β ε : Type} {f : α → β → Except ε α} {first : α} {steps : List β} {fault : ε}
    : steps.foldlM f first = .error fault
        ↔
      ∃ done step left value, steps = done ++ step :: left ∧ done.foldlM f first = .ok value
        ∧ f value step = .error fault := by
  constructor
  . intro h
    induction steps generalizing first with
    | nil => cases h
    | cons step steps ih =>
      rw [List.foldlM_cons] at h
      cases hvalue : f first step with
      | error other =>
        rw [hvalue] at h
        cases h
        exact ⟨[], step, steps, first, rfl, rfl, hvalue⟩
      | ok value =>
        rw [hvalue] at h
        rcases ih h with ⟨done, failing, left, before, rfl, hdone, hfault⟩
        refine ⟨step :: done, failing, left, before, rfl, ?_, hfault⟩
        rw [List.foldlM_cons, hvalue]
        exact hdone
  . rintro ⟨done, step, left, value, rfl, hdone, hfault⟩
    rw [List.foldlM_append, hdone]
    show List.foldlM f value (step :: left) = _
    rw [List.foldlM_cons, hfault]
    rfl

/--
A chain that is nested to the right is a list of all of its operands and operators in their order, and its value is
found from the left.
-/
structure FoldsToLeft (first : Value) (steps : List (Operator × Value)) : Prop where
  nested : nest first steps = .ok (.list (alternating first steps))
  length_eq : (alternating first steps).length = 2 * (steps.length + 1) - 1
  operand : ∀ k, (alternating first steps)[2 * k]? = (first :: steps.map Prod.snd)[k]?
  operator : ∀ k,
    (alternating first steps)[2 * k + 1]? = (steps.map fun step => Value.text step.1.mark)[k]?
  value : chainValue (alternating first steps) = steps.foldlM applyStep first
  failure : ∀ fault, chainValue (alternating first steps) = .error fault
    ↔
    ∃ done step left value, steps = done ++ step :: left ∧ done.foldlM applyStep first = .ok value
      ∧ applyStep value step = .error fault

theorem chain_foldsToLeft (first : Value) (steps : List (Operator × Value)) : FoldsToLeft first steps where
  nested := nest_eq first steps
  length_eq := length_alternating first steps
  operand := getElem?_operand first steps
  operator := getElem?_operator first steps
  value := chainValue_alternating first steps
  failure := by
    intro fault
    rw [chainValue_alternating]
    exact foldlM_eq_error

example : chainValue (alternating (.int 7) [(.sub, .int 2), (.sub, .int 3)]) = .ok (.int 2) := rfl

end Calculator
end TokenGrammar
