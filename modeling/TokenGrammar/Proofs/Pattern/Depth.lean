import TokenGrammar.Proofs.Pattern.Acceptance

/-!
This module contains expressions with groups around them. While rules are matched, a pattern is read only
if its groups do not nest too deeply, however well formed it is.
-/

namespace TokenGrammar
namespace Pattern

open Reading (Yields yields_pure yields_accept_ne)

namespace Draft

theorem length_outer_le_nesting (draft : Draft) (input : List Lexeme)
    : draft.outer.length ≤ draft.nesting input := by
  cases input with
  | nil => rw [nesting]
  | cons lexeme rest =>
    rw [nesting]
    split
    . exact Nat.le_refl _
    . exact Nat.le_max_left _ _

theorem nesting_le_of_step {draft next : Draft} {lexeme : Lexeme} {input rest : List Lexeme}
    (h : (draft.step lexeme).Yields input next rest)
    : next.nesting rest ≤ draft.nesting (lexeme :: input) := by
  rcases h with ⟨_, h⟩
  rw [nesting, h]
  exact Nat.le_max_right _ _

theorem yields_step_parenthesis (draft : Draft) {rest : List Lexeme}
    (h : rest.head? ≠ some (.plain '?'))
    : (draft.step (.plain '(')).Yields rest (draft.openRemembered none) rest := by
  have hstep : draft.step (.plain '(') = draft.readPlain '(' := by
    unfold step
    dsimp only
    rw [if_neg (by simp [isLayout]), if_neg (by simp)]
  rw [hstep]
  apply (yields_accept_ne h).bind
  exact yields_pure _ _

end Draft

namespace Expression

/--
The expression with so many groups around it.
-/
def enclosed (expression : Expression .whole) : Nat → Expression .whole
  | 0 => expression
  | count + 1 => .last (.cat (.group true (expression.enclosed count)) .once .empty)

theorem lexemes_enclosed_succ (expression : Expression .whole) (count : Nat)
    : (expression.enclosed (count + 1)).lexemes
        =
      .plain '(' :: ((expression.enclosed count).lexemes ++ [.plain ')']) := by
  simp [enclosed, lexemes, Times.lexemes]

theorem le_nesting_enclosed (expression : Expression .whole) (count : Nat) (draft : Draft)
    {rest : List Lexeme} (hrest : Unmarked rest)
    : draft.outer.length + count ≤ draft.nesting ((expression.enclosed count).lexemes ++ rest) := by
  induction count generalizing draft rest with
  | zero => exact draft.length_outer_le_nesting _
  | succ count ih =>
    have hclosing : Unmarked (.plain ')' :: rest) := unmarked_cons (by simp) rest
    have hunmarked : Unmarked ((expression.enclosed count).lexemes ++ .plain ')' :: rest) :=
      unmarked _ fun _ => hclosing
    have hstep := Draft.nesting_le_of_step (draft.yields_step_parenthesis (hunmarked '?' (by decide)))
    have hopened : (draft.openRemembered none).outer.length = draft.outer.length + 1 := rfl
    have hinner := ih (draft.openRemembered none) hclosing
    rw [lexemes_enclosed_succ, List.cons_append, List.append_assoc, List.singleton_append]
    omega

theorem le_count_enclosed (expression : Expression .whole) (count : Nat)
    : count ≤ (expression.enclosed count).text.toList.count '(' := by
  induction count with
  | zero => exact Nat.zero_le _
  | succ count ih =>
    unfold text at *
    rw [String.toList_ofList] at *
    rw [lexemes_enclosed_succ, List.flatMap_cons, List.flatMap_append]
    simp [Lexeme.chars]
    omega

/--
An expression with too many groups around it cannot be read while rules are matched.
-/
theorem read_enclosed (expression : Expression .whole) {count : Nat} (h : Element.groupLimit < count)
    : Element.read (expression.enclosed count).element = .error .exhausted := by
  have hunmarked : Unmarked [] := fun _ _ => nofun
  have hopen : Draft.outer {} = [] := rfl
  have hnesting := le_nesting_enclosed expression count {} hunmarked
  rw [List.append_nil, hopen, List.length_nil] at hnesting
  have hcount := le_count_enclosed expression count
  have hdeeper : nestsDeeper Element.groupLimit (expression.enclosed count).text = true := by
    unfold nestsDeeper
    rw [Bool.and_eq_true, decide_eq_true_eq, decide_eq_true_eq]
    have hlexemes : Lexeme.ofChars (expression.enclosed count).text.toList
        = (expression.enclosed count).lexemes := by
      unfold text
      rw [String.toList_ofList, Lexeme.ofChars_flatMap (proper _)]
    rw [hlexemes]
    omega
  unfold Element.read
  rw [patternBody_element, writesPattern_element, hdeeper]
  rfl

end Expression
end Pattern
end TokenGrammar
