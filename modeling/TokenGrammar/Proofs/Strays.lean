import TokenGrammar.Proofs.Calculator.Exactness
import TokenGrammar.Proofs.Json.Exactness
import TokenGrammar.Proofs.Json.Lexing
import TokenGrammar.Proofs.Refinement

/-!
This module contains what the calculator and the reader of JSON documents make of characters that belong to
no token. They make sure that the match takes all tokens, but they count them in the list that the characters
are already left out of; so each such character is taken for a space.
-/

namespace TokenGrammar

open Text (Lexer)

/--
Read a text as a whole: match it, and see to it that all of its tokens are matched.
-/
def Grammar.read (g : Grammar) (lexer : Lexer) (missing : String → Fault) (settings : Settings)
    (text : String) : Except Fault Value :=
  Evaluation.entire (missing text) (Text.lexemeTexts lexer text)
    (Grammar.parse settings (.text text) ⟨g, #[]⟩).1

/--
The characters outside of the tokens of a text make no difference to a reader. It returns a value where
the match has taken all tokens, and the same value for the text with spaces in the place of those characters.
-/
structure PassesOverStrays (lexer : Lexer) (parse : Settings → String → Except Fault (Option Match))
    (read : Settings → String → Except Fault Value) (settings : Settings) (text : String) : Prop where
  consumed : ∀ value, read settings text = .ok value →
    ∃ found, parse settings text = .ok (some found) ∧ found.tokens = Text.lexemeTexts lexer text
      ∧ found.result = value
  spaced : (read settings (Text.spaced lexer text)).toOption = (read settings text).toOption
  spaces : ∀ c ∈ Text.strays lexer (Text.spaced lexer text).toList, c = ' '

namespace Evaluation

theorem eq_of_entire {missing : Fault} {tokens : List String} {answer : Except Fault (Option Match)}
    {value : Value} (h : entire missing tokens answer = .ok value)
    : ∃ found, answer = .ok (some found) ∧ found.tokens.length = tokens.length
        ∧ found.result = value := by
  unfold entire at h
  rcases answer with fault | _ | found
  . cases h
  . cases h
  . by_cases hlength : found.tokens.length = tokens.length
    . refine ⟨found, rfl, hlength, ?_⟩
      simpa [bind, Except.bind, pure, Except.pure, hlength] using h
    . simp [bind, Except.bind, throw, throwThe, MonadExceptOf.throw, hlength] at h

theorem entire_toOption (missing missing' : Fault) (tokens : List String)
    (answer : Except Fault (Option Match))
    : (entire missing tokens answer).toOption = (entire missing' tokens answer).toOption := by
  rcases answer with fault | _ | found
  . rfl
  . rfl
  . rfl

end Evaluation

namespace Grammar

variable {g : Grammar} {lexer : Lexer}

theorem openSource_lexemes (hsplitter : g.splitter = .splitting (Text.lexemeTexts lexer)) (text : String)
    : TokenStream.openSource g.splitter (.text text)
        = .ok ⟨(Text.lexemeTexts lexer text).toArray, 0⟩ := by
  rw [hsplitter]
  exact TokenStream.openSource_splitting _ text

-- a text is only looked at to split it
theorem parse_spaced (hsplitter : g.splitter = .splitting (Text.lexemeTexts lexer))
    (hlexer : lexer.Tolerant) (settings : Settings) (text : String) (journal : Array Event)
    : Grammar.parse settings (.text (Text.spaced lexer text)) ⟨g, journal⟩
        =
      Grammar.parse settings (.text text) ⟨g, journal⟩ := by
  have hsource : TokenStream.openSource g.splitter (.text (Text.spaced lexer text))
      = TokenStream.openSource g.splitter (.text text) := by
    rw [openSource_lexemes hsplitter, openSource_lexemes hsplitter, Text.lexemeTexts_spaced hlexer]
  unfold Grammar.parse
  rw [Run.bind_apply, Run.bind_apply, Run.grammar_apply]
  dsimp only
  cases g.rules.toList with
  | nil => rfl
  | cons rule rules =>
    dsimp only
    unfold Run.start
    rw [Run.bind_apply, Run.bind_apply, Run.grammar_apply]
    dsimp only
    rw [hsource]

theorem isPrefix_of_parse (hsplitter : g.splitter = .splitting (Text.lexemeTexts lexer))
    (hblank : g.rules.BlankFree) {settings : Settings} {text : String} {found : Match}
    {journal : Array Event} (h : (Grammar.parse settings (.text text) ⟨g, journal⟩).1 = .ok (some found))
    : found.tokens <+: Text.lexemeTexts lexer text := by
  change (Entry.first.run settings (.text text) ⟨g, journal⟩).1 = _ at h
  cases hrule : Entry.first.rule? g.rules with
  | error fault =>
    rw [Entry.run_eq, Run.bind_apply, Run.grammar_apply] at h
    dsimp only at h
    rw [hrule] at h
    cases h
  | ok rule =>
    have hempty : "" ∉ (Text.lexemeTexts lexer text).toArray := by
      rw [List.mem_toArray]
      exact Text.empty_not_mem_lexemes lexer text.toList
    have hderives := Entry.derives_of_run hrule (openSource_lexemes hsplitter text) hblank
      (Int.le_refl 0) hempty h
    have hprefix := hderives.isPrefix
    simpa [TokenStream.rest] using hprefix

theorem read_passesOverStrays (hsplitter : g.splitter = .splitting (Text.lexemeTexts lexer))
    (hblank : g.rules.BlankFree) (hlexer : lexer.Tolerant) (missing : String → Fault)
    (settings : Settings) (text : String)
    : PassesOverStrays lexer (fun settings text => (Grammar.parse settings (.text text) ⟨g, #[]⟩).1)
        (g.read lexer missing) settings text where
  consumed := by
    intro value hvalue
    unfold Grammar.read at hvalue
    rcases Evaluation.eq_of_entire hvalue with ⟨found, hfound, hlength, rfl⟩
    have hprefix := isPrefix_of_parse hsplitter hblank hfound
    exact ⟨found, hfound, hprefix.eq_of_length hlength, rfl⟩
  spaced := by
    unfold Grammar.read
    rw [parse_spaced hsplitter hlexer, Text.lexemeTexts_spaced hlexer]
    apply Evaluation.entire_toOption
  spaces := by
    intro c hc
    unfold Text.spaced at hc
    rw [String.toList_ofList] at hc
    exact Text.eq_space_of_mem_strays hlexer hc

end Grammar

theorem Calculator.tolerant_lexer : lexer.Tolerant where
  space := fun _ => rfl
  fits := by
    intro cs
    unfold lexer
    split
    . exact Nat.le_refl 0
    . next c rest =>
      have := (List.takeWhile_sublist Text.isDigit (l := rest)).length_le
      rw [List.length_cons]
      split
      . omega
      . split
        . omega
        . omega
  stable := by
    intro lexeme hne rest h
    cases lexeme with
    | nil => exact (hne rfl).elim
    | cons c lexeme =>
      unfold lexer at *
      rw [List.cons_append] at h ⊢
      dsimp only at h ⊢
      split at h
      . next hdigit =>
        rw [if_pos hdigit, Text.length_takeWhile_append (Nat.succ.inj h)
          (Text.length_takeWhile_blanked (by decide)), List.length_cons]
      . next hdigit =>
        rw [if_neg hdigit]
        exact h

/--
The calculator and the reader of JSON documents look at nothing but the tokens of a text. Where they return a
value every token has been matched; but whatever else is in the text, be it blank or not, is taken for spaces.
-/
theorem readers_pass_over_strays (settings : Settings) (text : String)
    : PassesOverStrays Calculator.lexer Calculator.parse Calculator.evaluate settings text
      ∧ PassesOverStrays Json.lexer Json.parse Json.load settings text := by
  constructor
  . have hsplitter : Calculator.grammar.splitter
        = .splitting (Text.lexemeTexts Calculator.lexer) := by
      rw [Calculator.grammar_eq]
      rfl
    have hblank : Calculator.grammar.rules.BlankFree := by
      rw [Calculator.grammar_eq]
      simp [RuleSet.BlankFree]
    exact Grammar.read_passesOverStrays hsplitter hblank Calculator.tolerant_lexer .notArithmetic settings
      text
  . have hsplitter : Json.grammar.splitter = .splitting (Text.lexemeTexts Json.lexer) := by
      rw [Json.grammar, Json.grammar_eq]
      rfl
    have hblank : Json.grammar.rules.BlankFree := by
      rw [Json.grammar, Json.grammar_eq]
      simp [RuleSet.BlankFree, Json.ScalarKind.written]
    exact Grammar.read_passesOverStrays hsplitter hblank Json.tolerant_lexer .notDocument settings text

/--
A sign that is no part of any expression stands behind a number, and a letter behind a list. Neither of the
texts is refused.
-/
theorem readers_pass_over_strays_trailing
    : ('$' ∈ Text.strays Calculator.lexer "1 $".toList
        ∧ ∃ value, Calculator.evaluate {} "1 $" = .ok value ∧ value.written = "1"
          ∧ (Calculator.evaluate {} "1  ").toOption = some value)
      ∧ 'x' ∈ Text.strays Json.lexer "[1] x".toList
        ∧ ∃ value, Json.load {} "[1] x" = .ok value ∧ value.written = "[1]"
          ∧ (Json.load {} "[1]  ").toOption = some value := by
  have hexists {answer answer' : Except Fault Value} {shown : String}
      (hanswer : answer.toOption.map Value.written = some shown)
      (hspaced : answer'.toOption = answer.toOption)
      : ∃ value, answer = .ok value ∧ value.written = shown ∧ answer'.toOption = some value := by
    rcases Option.map_eq_some_iff.mp hanswer with ⟨value, hvalue, hshown⟩
    exact ⟨value, eq_ok_of_toOption hvalue, hshown, hspaced.trans hvalue⟩
  have hcalculator := (readers_pass_over_strays {} "1 $").1.spaced
  have hjson := (readers_pass_over_strays {} "[1] x").2.spaced
  rw [show Text.spaced Calculator.lexer "1 $" = "1  " by decide +kernel] at hcalculator
  rw [show Text.spaced Json.lexer "[1] x" = "[1]  " by decide +kernel] at hjson
  exact ⟨⟨by decide +kernel, hexists (by decide +kernel) hcalculator⟩, by decide +kernel,
    hexists (by decide +kernel) hjson⟩

end TokenGrammar
