import TokenGrammar.Proofs.Blanking

/-!
This module contains the places of the lexemes in a text: each of them with what stands before and behind it. The
scan goes from left to right, so no lexeme begins before the one in front of it has ended.
-/

namespace TokenGrammar
namespace Text

/--
A part of a text, with what stands before and behind it.
-/
structure Span where
  before : List Char
  chars : List Char
  after : List Char

namespace Span

def text (span : Span) : List Char := span.before ++ (span.chars ++ span.after)

/--
The next part begins where this one ends, or behind that.
-/
def Precedes (span next : Span) : Prop := span.before ++ span.chars <+: next.before

end Span

/--
The lexemes of a text behind another one, at their places in both together.
-/
def spans (lexer : Lexer) (before : List Char) : List Char → List Span
  | [] => []
  | c :: rest =>
    match lexer (c :: rest) with
    | 0 => spans lexer (before ++ [c]) rest
    | length + 1 =>
      ⟨before, c :: rest.take length, rest.drop length⟩
        :: spans lexer (before ++ c :: rest.take length) (rest.drop length)
termination_by cs => cs.length
decreasing_by
  · simp
  · simp only [List.length_cons, List.length_drop]
    omega

variable (lexer : Lexer)

theorem map_chars_spans (before cs : List Char) : (spans lexer before cs).map Span.chars = lexemes lexer cs := by
  fun_induction spans lexer before cs with
  | case1 => rw [lexemes, List.map_nil]
  | case2 before c rest hlexer ih =>
    rw [lexemes, hlexer]
    exact ih
  | case3 before c rest length hlexer ih =>
    rw [lexemes, hlexer, List.map_cons, ih]

theorem text_of_mem_spans {before cs : List Char} {span : Span} (h : span ∈ spans lexer before cs)
    : span.text = before ++ cs ∧ before <+: span.before := by
  fun_induction spans lexer before cs with
  | case1 => cases h
  | case2 before c rest hlexer ih =>
    rcases ih h with ⟨htext, hprefix⟩
    exact ⟨by rw [htext, List.append_assoc, List.singleton_append], (List.prefix_append _ _).trans hprefix⟩
  | case3 before c rest length hlexer ih =>
    rcases List.mem_cons.mp h with rfl | h
    . refine ⟨?_, List.prefix_rfl⟩
      rw [Span.text, List.cons_append, List.take_append_drop]
    . rcases ih h with ⟨htext, hprefix⟩
      refine ⟨?_, (List.prefix_append _ _).trans hprefix⟩
      rw [htext, List.append_assoc, List.cons_append, List.take_append_drop]

theorem pairwise_spans (before cs : List Char) : (spans lexer before cs).Pairwise Span.Precedes := by
  fun_induction spans lexer before cs with
  | case1 => exact .nil
  | case2 before c rest hlexer ih => exact ih
  | case3 before c rest length hlexer ih => exact .cons (fun _ h => (text_of_mem_spans lexer h).2) ih

theorem spans_append {lexeme rest : List Char} (hne : lexeme ≠ []) (h : lexer (lexeme ++ rest) = lexeme.length)
    (before : List Char)
    : spans lexer before (lexeme ++ rest)
        = ⟨before, lexeme, rest⟩ :: spans lexer (before ++ lexeme) rest := by
  cases lexeme with
  | nil => exact (hne rfl).elim
  | cons c lexeme =>
    rw [List.cons_append] at h ⊢
    rw [spans, h]
    simp

end Text

end TokenGrammar
