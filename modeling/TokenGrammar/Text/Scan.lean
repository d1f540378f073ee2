/-!
This module contains the search for lexemes in a text: from left to right, without overlap, and with
everything that begins no lexeme left out.
-/

namespace TokenGrammar
namespace Text

/--
A lexer says how many characters the lexeme at the start of a text has; there is none if it says zero.
-/
abbrev Lexer := List Char → Nat

/--
The lexemes of a text.
-/
def lexemes (lexer : Lexer) : List Char → List (List Char)
  | [] => []
  | c :: rest =>
    match lexer (c :: rest) with
    | 0 => lexemes lexer rest
    | length + 1 => (c :: rest.take length) :: lexemes lexer (rest.drop length)
termination_by cs => cs.length
decreasing_by
  · simp
  · simp only [List.length_cons, List.length_drop]
    omega

theorem nil_not_mem_lexemes (lexer : Lexer) (cs : List Char) : [] ∉ lexemes lexer cs := by
  fun_induction lexemes lexer cs with
  | case1 => simp
  | case2 c rest hlexer ih => exact ih
  | case3 c rest length hlexer ih => simpa using ih

theorem empty_not_mem_lexemes (lexer : Lexer) (cs : List Char)
    : "" ∉ (lexemes lexer cs).map String.ofList := by
  intro hmem
  rcases List.mem_map.mp hmem with ⟨lexeme, hlexeme, hempty⟩
  have hnil : lexeme = [] := by simpa using hempty
  rw [hnil] at hlexeme
  exact nil_not_mem_lexemes lexer cs hlexeme

/--
The first of several lexers that finds a lexeme decides.
-/
def firstLexeme (lexers : List Lexer) : Lexer :=
  fun cs => (lexers.find? fun lexer => lexer cs != 0).elim 0 (· cs)

end Text
end TokenGrammar
