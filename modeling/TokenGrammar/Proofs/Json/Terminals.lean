import TokenGrammar.Proofs.Json.TokenPattern

/-!
This module contains the elements of the grammar of JSON documents that ask for single tokens. They are a pattern for
strings, a pattern for numbers and literals. So what a token may be is written twice, here and in the pattern that the
tokens are found by; each token that is found is accepted by exactly one of the elements.
-/

namespace TokenGrammar
namespace Json

open Pattern

/--
The element is written somewhere in the grammar, and it is no reference to a rule.
-/
def IsTerminal (written : String) : Prop :=
  (∃ rule ∈ grammar.rules.toList, ∃ option ∈ rule.options, written ∈ option)
    ∧ (Element.writesLiteral written = true ∨ Element.writesPattern written = true)

/--
The element accepts the token.
-/
def Accepts (written token : String) : Prop :=
  ∃ element, Element.read written = .ok element ∧ element.accepts (some token) = true

/--
The texts of the literals: the constants and the marks.
-/
def literals : List String := constants ++ marks.map fun mark => String.ofList [mark]

def terminals : List String :=
  ScalarKind.string.written ++ (ScalarKind.number.written ++ literals.map ("\x22" ++ ·))

theorem isTerminal_iff {written : String} : IsTerminal written ↔ written ∈ terminals := by
  constructor
  . rintro ⟨⟨rule, hrule, option, hoption, hwritten⟩, hterminal⟩
    have hgrammar : ∀ rule ∈ grammar.rules.toList, ∀ option ∈ rule.options, ∀ written ∈ option,
        Element.writesLiteral written = true ∨ Element.writesPattern written = true →
        written ∈ terminals := by
      rw [grammar, grammar_eq]
      decide +kernel
    exact hgrammar rule hrule option hoption written hwritten hterminal
  . intro hwritten
    have hgrammar : ∀ written ∈ terminals,
        (∃ rule ∈ grammar.rules.toList, ∃ option ∈ rule.options, written ∈ option)
          ∧ (Element.writesLiteral written = true ∨ Element.writesPattern written = true) := by
      rw [grammar, grammar_eq]
      decide +kernel
    exact hgrammar written hwritten

theorem accepts_literal {text token : String} : Accepts ("\x22" ++ text) token ↔ token = text := by
  have hread : Element.read ("\x22" ++ text) = .ok (.literal text) := by
    simp [Element.read, Element.ofText, Element.writesLiteral, Element.writesPattern]
  unfold Accepts
  rw [hread]
  simp [Element.accepts]

theorem accepts_written {kind : ScalarKind} {written token : String} (h : kind.written = [written])
    : Accepts written token ↔ token.toList ∈ kind.language := by
  rw [← ScalarKind.accepts_iff_mem_language]
  unfold ScalarKind.Accepts Accepts
  rw [h]
  simp

/--
The only element that may accept a token, by the first character of the token.
-/
def candidate? (token : String) : Option String :=
  match token.toList with
  | [] => none
  | c :: _ =>
    if c = '\x22' then ScalarKind.string.written.head?
    else if BeginsNumber c then ScalarKind.number.written.head?
    else some ("\x22" ++ token)

theorem candidate?_of_accepts {token written : String} (hwritten : written ∈ terminals)
    (haccepts : Accepts written token)
    : candidate? token = some written := by
  unfold terminals at hwritten
  rw [List.mem_append, List.mem_append] at hwritten
  rcases hwritten with hstring | hnumber | hliteral
  . obtain rfl := List.mem_singleton.mp hstring
    rw [accepts_written (show ScalarKind.string.written = [_] from rfl)] at haccepts
    rcases mem_oneOf_mul.mp haccepts with ⟨_, rest, htoken, rfl, _⟩
    unfold candidate?
    rw [htoken]
    rfl
  . obtain rfl := List.mem_singleton.mp hnumber
    rw [accepts_written (show ScalarKind.number.written = [_] from rfl)] at haccepts
    rcases number_begins haccepts with ⟨c, rest, htoken, hc⟩
    unfold candidate?
    rw [htoken]
    dsimp only
    rw [if_neg hc.ne_quote, if_pos hc]
    rfl
  . rcases List.mem_map.mp hliteral with ⟨text, htext, rfl⟩
    have hliterals : ∀ text ∈ literals, candidate? text = some ("\x22" ++ text) := by decide +kernel
    rw [accepts_literal.mp haccepts]
    exact hliterals text htext

/--
What the lexer finds is a string, a number or the text of a literal.
-/
theorem mem_of_lexer {lexeme rest : List Char} (hne : lexeme ≠ [])
    (h : lexer (lexeme ++ rest) = lexeme.length)
    : lexeme ∈ ScalarKind.string.language ∨ lexeme ∈ ScalarKind.number.language
        ∨ String.ofList lexeme ∈ literals := by
  cases lexeme with
  | nil => exact (hne rfl).elim
  | cons c cs =>
    rw [List.cons_append, lexer_cons] at h
    unfold lexerFor at h
    split at h
    . next hquote =>
      subst hquote
      rw [stringLexer_quote] at h
      cases hlength : stringRest? (cs ++ rest) with
      | none =>
        rw [hlength] at h
        cases h
      | some length =>
        rw [hlength] at h
        rw [Nat.succ.inj h] at hlength
        have htail := mem_of_stringRest? hlength
        rw [List.take_left] at htail
        exact .inl (mem_oneOf_mul.mpr ⟨_, cs, rfl, rfl, htail⟩)
    . split at h
      . exact .inr (.inl (mem_of_numberLexer h hne))
      . split at h
        . next hmark =>
          rw [markLexer_of_mem hmark] at h
          rw [List.length_eq_zero_iff.mp (Nat.succ.inj h).symm]
          exact .inr (.inr (List.mem_append_right _ (List.mem_map_of_mem hmark)))
        . rcases exists_constant_eq h hne with ⟨name, hname, hlexeme⟩
          rw [← hlexeme, String.ofList_toList]
          exact .inr (.inr (List.mem_append_left _ hname))

theorem exists_terminal {lexeme : List Char}
    (h : lexeme ∈ ScalarKind.string.language ∨ lexeme ∈ ScalarKind.number.language
      ∨ String.ofList lexeme ∈ literals)
    : ∃ written ∈ terminals, Accepts written (String.ofList lexeme) := by
  have hscalar {kind : ScalarKind} {written : String} (hkind : kind.written = [written])
      (hmem : lexeme ∈ kind.language)
      : Accepts written (String.ofList lexeme) := by
    rw [accepts_written hkind, String.toList_ofList]
    exact hmem
  unfold terminals
  rcases h with hstring | hnumber | hliteral
  . exact ⟨_, List.mem_cons_self, hscalar rfl hstring⟩
  . exact ⟨_, List.mem_cons_of_mem _ List.mem_cons_self, hscalar rfl hnumber⟩
  . refine ⟨_, ?_, accepts_literal.mpr rfl⟩
    exact List.mem_append_right _ (List.mem_append_right _ (List.mem_map_of_mem hliteral))

/--
Each match of the pattern for tokens in a text is accepted by exactly one of the elements that ask for a token.
-/
theorem tokens_unambiguous
    : (∀ written, IsTerminal written ↔ written ∈ terminals)
      ∧ ∃ regex, Regex.ofText tokenPattern = .ok regex
        ∧ ∀ text, tokens text = Text.lexemeTexts regex.firstMatch text
          ∧ ∀ token ∈ tokens text, token ≠ ""
            ∧ ∃! written, IsTerminal written ∧ Accepts written token := by
  refine ⟨fun _ => isTerminal_iff, tokenRegex, ofText_tokenPattern, fun text => ⟨tokens_eq_matches text, ?_⟩⟩
  intro token htoken
  constructor
  . rintro rfl
    exact Text.empty_not_mem_lexemes lexer text.toList htoken
  . rcases List.mem_map.mp htoken with ⟨lexeme, hlexeme, rfl⟩
    rcases Text.exists_rest_of_mem_lexemes tolerant_lexer hlexeme with ⟨hne, rest, hlexer⟩
    rcases exists_terminal (mem_of_lexer hne hlexer) with ⟨written, hwritten, haccepts⟩
    refine ⟨written, ⟨isTerminal_iff.mpr hwritten, haccepts⟩, ?_⟩
    rintro other ⟨hother, haccepts'⟩
    have hcandidate := candidate?_of_accepts hwritten haccepts
    rw [candidate?_of_accepts (isTerminal_iff.mp hother) haccepts'] at hcandidate
    exact Option.some.inj hcandidate

-- the second of two numbers that stand together, behind a string and in front of an unfinished exponent
theorem tokens_unambiguous_adjacent
    : "1.5" ∈ tokens "\x22[1,\x22 01.5e truefalse" ∧ "1.5" ≠ ""
        ∧ ∃! written, IsTerminal written ∧ Accepts written "1.5" := by
  have htoken : "1.5" ∈ tokens "\x22[1,\x22 01.5e truefalse" := by decide +kernel
  rcases tokens_unambiguous with ⟨_, _, _, htokens⟩
  exact ⟨htoken, (htokens _).2 "1.5" htoken⟩

end Json
end TokenGrammar
