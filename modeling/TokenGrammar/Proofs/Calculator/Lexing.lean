import TokenGrammar.Proofs.Calculator.Denotation
import TokenGrammar.Proofs.Pattern.FirstMatch
import TokenGrammar.Proofs.Spans

/-!
This module contains the tokens of the calculator as parts of a text: a token is a run of digits that goes on for as
long as possible to both sides, or a mark. These are the matches of the pattern that tokens are found by, one behind
another; and they are found again when they are written with spaces between them.
-/

namespace TokenGrammar
namespace Calculator

open Pattern
open Text (Span spans)

/--
The text does not begin with a digit.
-/
def NoDigitFirst (cs : List Char) : Prop := ∀ c, cs.head? = some c → Text.isDigit c = false

/--
The text does not end with a digit.
-/
def NoDigitLast (cs : List Char) : Prop := ∀ c, cs.getLast? = some c → Text.isDigit c = false

/--
A part of a text is a token: a run of digits with no further digit on either side, or a mark.
-/
inductive IsToken (span : Span) : Prop where
  | number (hne : span.chars ≠ []) (hdigits : ∀ c ∈ span.chars, Text.isDigit c = true)
    (hbefore : NoDigitLast span.before) (hafter : NoDigitFirst span.after)
  | mark {c : Char} (hmark : c ∈ marks) (hchars : span.chars = [c])

theorem isDigit_of_mem_marks {c : Char} (h : c ∈ marks) : Text.isDigit c = false := by
  have hmarks : marks.all (!Text.isDigit ·) = true := by decide
  simpa using List.all_eq_true.mp hmarks c h

theorem not_mem_marks {c : Char} (h : Text.isDigit c = true) : c ∉ marks := by
  intro hmark
  rw [isDigit_of_mem_marks hmark] at h
  cases h

theorem noDigitFirst_cons {c : Char} (hc : Text.isDigit c = false) (cs : List Char) : NoDigitFirst (c :: cs) := by
  rintro _ ⟨⟩
  exact hc

theorem noDigitFirst_nil : NoDigitFirst [] := by
  rintro _ ⟨⟩

theorem noDigitLast_nil : NoDigitLast [] := by
  rintro _ ⟨⟩

theorem noDigitLast_append {c : Char} (hc : Text.isDigit c = false) (cs : List Char)
    : NoDigitLast (cs ++ [c]) := by
  intro d hd
  rw [List.getLast?_concat] at hd
  cases hd
  exact hc

theorem eq_nil_of_noDigitLast_append {before digits : List Char} (h : NoDigitLast (before ++ digits))
    (hdigits : ∀ c ∈ digits, Text.isDigit c = true)
    : digits = [] := by
  rcases List.eq_nil_or_concat digits with hnil | ⟨front, c, rfl⟩
  . exact hnil
  . have hdigit := hdigits c (by simp)
    rw [h c (by simp)] at hdigit
    cases hdigit

namespace IsToken

variable {before ahead more chars after rest : List Char} {span : Span}

theorem ne_nil (h : IsToken span) : span.chars ≠ [] := by
  cases h with
  | number hne _ _ _ => exact hne
  | mark hmark hchars =>
    rw [hchars]
    exact List.cons_ne_nil _ []

theorem exists_first (h : IsToken span) : ∃ c cs, span.chars = c :: cs ∧ (Text.isDigit c = true ∨ c ∈ marks) := by
  cases h with
  | number hne hdigits _ _ =>
    rcases List.exists_cons_of_ne_nil hne with ⟨c, cs, hchars⟩
    exact ⟨c, cs, hchars, .inl (hdigits c (by rw [hchars]; exact List.mem_cons_self))⟩
  | @mark c hmark hchars => exact ⟨c, [], hchars, .inr hmark⟩

/--
The same characters are a token in every other place that has no digits next to it.
-/
theorem moved (h : IsToken span) (hbefore : NoDigitLast before) (hafter : NoDigitFirst after)
    : IsToken ⟨before, span.chars, after⟩ := by
  cases h with
  | number hne hdigits _ _ => exact .number hne hdigits hbefore hafter
  | mark hmark hchars => exact .mark hmark hchars

theorem lexer_eq (h : IsToken ⟨before, chars, rest⟩) : lexer (chars ++ rest) = chars.length := by
  cases h with
  | number hne hdigits _ hafter =>
    cases chars with
    | nil => exact (hne rfl).elim
    | cons c chars =>
      rw [List.forall_mem_cons] at hdigits
      unfold lexer
      rw [List.cons_append]
      dsimp only
      rw [if_pos hdigits.1, Text.takeWhile_append_of_ends hdigits.2 hafter, List.length_cons]
  | @mark c hmark hchars =>
    have hdigit := isDigit_of_mem_marks hmark
    cases hchars
    unfold lexer
    rw [List.singleton_append]
    dsimp only
    rw [if_neg (by simp [hdigit]), if_pos (by simpa using hmark)]
    rfl

/--
A token does not begin within another one.
-/
theorem eq_of_within (hlexeme : IsToken ⟨[], ahead ++ more, rest⟩) (hmore : more ≠ [])
    (h : IsToken ⟨before ++ ahead, chars, after⟩) (htext : chars ++ after = more ++ rest)
    : ahead = [] ∧ chars = more ∧ after = rest := by
  rcases h.exists_first with ⟨c, cs, rfl, _⟩
  rcases List.exists_cons_of_ne_nil hmore with ⟨_, ds, rfl⟩
  obtain ⟨rfl, hbehind⟩ := List.cons.inj htext
  cases hlexeme with
  | number _ hlexeme _ hrest =>
    have hmore : ∀ d ∈ c :: ds, Text.isDigit d = true := fun d hd => hlexeme d (List.mem_append_right ahead hd)
    cases h with
    | number _ hdigits hbefore hafter =>
      have hahead : ahead = [] :=
        eq_nil_of_noDigitLast_append hbefore fun d hd => hlexeme d (List.mem_append_left _ hd)
      have hchars : c :: cs = c :: ds :=
        calc
          c :: cs = (c :: cs ++ after).takeWhile Text.isDigit := (Text.takeWhile_append_of_ends hdigits hafter).symm
          _ = (c :: ds ++ rest).takeWhile Text.isDigit := by rw [htext]
          _ = c :: ds := Text.takeWhile_append_of_ends hmore hrest
      rw [hchars] at htext
      exact ⟨hahead, hchars, List.append_cancel_left htext⟩
    | mark hmark hchars =>
      cases hchars
      exact (not_mem_marks (hmore c List.mem_cons_self) hmark).elim
  | mark hmark hchars =>
    cases ahead with
    | cons d ahead => simp at hchars
    | nil =>
      cases hchars
      cases h with
      | number _ hdigits _ _ => exact (not_mem_marks (hdigits c List.mem_cons_self) hmark).elim
      | mark _ hchars =>
        cases hchars
        exact ⟨rfl, rfl, hbehind⟩

end IsToken

theorem lexer_other {c : Char} (hdigit : Text.isDigit c = false) (hmark : c ∉ marks) (rest : List Char)
    : lexer (c :: rest) = 0 := by
  unfold lexer
  dsimp only
  rw [if_neg (by simp [hdigit]), if_neg (by simpa using hmark)]

/--
A text is empty, or it begins with a character of no token, or with a token.
-/
theorem tokens_induct {motive : List Char → Prop} (nil : motive [])
    (other : ∀ c rest, Text.isDigit c = false → c ∉ marks → motive rest → motive (c :: rest))
    (token : ∀ chars rest, IsToken ⟨[], chars, rest⟩ → motive rest → motive (chars ++ rest))
    (cs : List Char)
    : motive cs := by
  induction hlength : cs.length using Nat.strong_induction_on generalizing cs with
  | h length ih =>
    cases cs with
    | nil => exact nil
    | cons c rest =>
      rw [List.length_cons] at hlength
      cases hdigit : Text.isDigit c with
      | false =>
        have hrest := ih rest.length (by omega) rest rfl
        by_cases hmark : c ∈ marks
        . exact token [c] rest (.mark hmark rfl) hrest
        . exact other c rest hdigit hmark hrest
      | true =>
        have hdigits : ∀ d ∈ c :: rest.takeWhile Text.isDigit, Text.isDigit d = true :=
          List.forall_mem_cons.mpr ⟨hdigit, List.all_eq_true.mp List.all_takeWhile⟩
        have hafter : NoDigitFirst (rest.dropWhile Text.isDigit) := by
          intro d hd
          have hfirst := List.head?_dropWhile_not Text.isDigit rest
          rw [hd] at hfirst
          exact hfirst
        have hsplit : c :: rest = (c :: rest.takeWhile Text.isDigit) ++ rest.dropWhile Text.isDigit := by
          rw [List.cons_append, List.takeWhile_append_dropWhile]
        have hless := (List.dropWhile_sublist Text.isDigit (l := rest)).length_le
        rw [hsplit]
        exact token _ _ (.number (List.cons_ne_nil _ _) hdigits noDigitLast_nil hafter) (ih _ (by omega) _ rfl)

theorem spans_other {c : Char} (hdigit : Text.isDigit c = false) (hmark : c ∉ marks) (before rest : List Char)
    : spans lexer before (c :: rest) = spans lexer (before ++ [c]) rest := by
  rw [spans, lexer_other hdigit hmark]

theorem spans_token {chars rest : List Char} (h : IsToken ⟨[], chars, rest⟩) (before : List Char)
    : spans lexer before (chars ++ rest) = ⟨before, chars, rest⟩ :: spans lexer (before ++ chars) rest :=
  Text.spans_append lexer h.ne_nil h.lexer_eq before

/--
A scan that does not begin within a run of digits finds nothing but tokens.
-/
theorem isToken_of_mem_spans {before cs : List Char} (h : NoDigitLast before ∨ NoDigitFirst cs) {span : Span}
    (hspan : span ∈ spans lexer before cs)
    : IsToken span := by
  induction cs using tokens_induct generalizing before with
  | nil =>
    rw [spans] at hspan
    cases hspan
  | other c rest hdigit hmark ih =>
    rw [spans_other hdigit hmark] at hspan
    exact ih (.inl (noDigitLast_append hdigit before)) hspan
  | token chars rest htoken ih =>
    rw [spans_token htoken] at hspan
    cases htoken with
    | number hne hdigits _ hafter =>
      have hbefore : NoDigitLast before := by
        rcases h with h | h
        . exact h
        . rcases List.exists_cons_of_ne_nil hne with ⟨c, cs, rfl⟩
          have hdigit := hdigits c List.mem_cons_self
          rw [h c rfl] at hdigit
          cases hdigit
      rcases List.mem_cons.mp hspan with rfl | hspan
      . exact .number hne hdigits hbefore hafter
      . exact ih (.inr hafter) hspan
    | @mark c hmark hchars =>
      cases hchars
      rcases List.mem_cons.mp hspan with rfl | hspan
      . exact .mark hmark rfl
      . exact ih (.inl (noDigitLast_append (isDigit_of_mem_marks hmark) before)) hspan

/--
A scan finds all tokens that are not in front of the place where it begins.
-/
theorem mem_spans_of_isToken {before ahead chars after : List Char} (h : IsToken ⟨before ++ ahead, chars, after⟩)
    : ⟨before ++ ahead, chars, after⟩ ∈ spans lexer before (ahead ++ (chars ++ after)) := by
  generalize hcs : ahead ++ (chars ++ after) = cs
  induction cs using tokens_induct generalizing before ahead with
  | nil =>
    rcases h.exists_first with ⟨c, more, rfl, _⟩
    simp at hcs
  | other c rest hdigit hmark ih =>
    rw [spans_other hdigit hmark]
    cases ahead with
    | nil =>
      rcases h.exists_first with ⟨_, more, rfl, hfirst⟩
      cases hcs
      rcases hfirst with hfirst | hfirst
      . rw [hdigit] at hfirst
        cases hfirst
      . exact (hmark hfirst).elim
    | cons _ ahead =>
      obtain ⟨rfl, hrest⟩ := List.cons.inj hcs
      rw [List.append_cons before _ ahead] at h ⊢
      exact ih h hrest
  | token lexeme rest htoken ih =>
    rw [spans_token htoken]
    -- the token asked for begins behind the one found here, or it would have to begin within it
    rcases List.append_eq_append_iff.mp hcs.symm with ⟨more, rfl, hrest⟩ | ⟨more, rfl, hrest⟩
    . rw [← List.append_assoc] at h ⊢
      exact List.mem_cons_of_mem _ (ih h hrest.symm)
    . by_cases hmore : more = []
      . rw [hmore, List.nil_append] at hrest
        rw [hmore, List.append_nil]
        rw [← List.append_nil (before ++ ahead)] at h
        have hlater := ih h hrest
        rw [List.append_nil] at hlater
        exact List.mem_cons_of_mem _ hlater
      . rcases htoken.eq_of_within hmore h hrest with ⟨rfl, rfl, rfl⟩
        rw [List.append_nil]
        exact List.mem_cons_self

/--
The pattern that the tokens are found by.
-/
def tokenPattern : String := "\\d+|[-+*/()]"

def markSet : CharSet := ⟨marks.map fun mark => .range mark.toNat mark.toNat, false, .exact⟩

def tokenRegex : Regex := .alt (.rounds .greedy 1 none (.one digits)) (.one markSet)

theorem ofText_tokenPattern : Regex.ofText tokenPattern = .ok tokenRegex := by
  decide +kernel

theorem runs_tokenRegex
    : tokenRegex.search.Runs fun left cs =>
        (single (Text.isDigit · = true) (repeated (single (Text.isDigit · = true)) left) cs).or
          (single (· ∈ marks) left cs) := by
  have hdigit : (Regex.one digits).search.Runs (single (Text.isDigit · = true)) := by
    apply runs_one
    intro c
    simp [digits, CharSet.contains, ClassItem.contains, Category.contains]
  have hmarks : (Regex.one markSet).search.Runs (single (· ∈ marks)) := by
    apply runs_one
    intro c
    simp [markSet, marks, CharSet.contains, ClassItem.contains, Folding.variants, ← Char.toNat_inj]
    omega
  exact (hdigit.cat hdigit.greedy).alt hmarks

/--
The first match of the pattern at the start of a text is what the lexer finds there.
-/
theorem firstMatch_tokenRegex : tokenRegex.firstMatch = lexer := by
  funext cs
  rw [Regex.firstMatch_eq runs_tokenRegex]
  cases cs with
  | nil => rfl
  | cons c rest =>
    unfold lexer
    dsimp only
    have hdigits : (fun d => decide (Text.isDigit d = true)) = Text.isDigit := by
      funext d
      rw [Bool.decide_eq_true]
    rw [single, single, repeated_single _ fun _ => rfl, hdigits]
    by_cases hdigit : Text.isDigit c = true
    . have hlength : rest.length = (rest.takeWhile Text.isDigit).length + (rest.dropWhile Text.isDigit).length := by
        rw [← List.length_append, List.takeWhile_append_dropWhile]
      rw [if_pos hdigit, if_pos hdigit, allLeft, Option.some_or, Option.elim_some, List.length_cons]
      omega
    . rw [if_neg hdigit, if_neg hdigit, Option.none_or]
      by_cases hmark : c ∈ marks
      . rw [if_pos hmark, if_pos (by simpa using hmark)]
        simp [allLeft]
      . rw [if_neg hmark, if_neg (by simpa using hmark)]
        rfl

theorem tokens_eq_matches (text : String) : tokens text = Text.lexemeTexts tokenRegex.firstMatch text := by
  rw [firstMatch_tokenRegex]
  rfl

theorem lexemes_intercalate {lexemes : List (List Char)} (h : ∀ lexeme ∈ lexemes, IsToken ⟨[], lexeme, []⟩)
    : Text.lexemes lexer ([' '].intercalate lexemes) = lexemes := by
  have hfirst {lexeme : List Char} (hlexeme : IsToken ⟨[], lexeme, []⟩) {rest : List Char}
      (hrest : NoDigitFirst rest)
      : Text.lexemes lexer (lexeme ++ rest) = lexeme :: Text.lexemes lexer rest :=
    Text.lexemes_append hlexeme.ne_nil (hlexeme.moved noDigitLast_nil hrest).lexer_eq
  induction lexemes with
  | nil => rw [List.intercalate_nil, Text.lexemes]
  | cons lexeme lexemes ih =>
    rw [List.forall_mem_cons] at h
    by_cases hlast : lexemes = []
    . have halone := hfirst h.1 noDigitFirst_nil
      rw [List.append_nil, Text.lexemes] at halone
      rw [hlast, List.intercalate_singleton]
      exact halone
    . have hspace : Text.lexemes lexer (' ' :: [' '].intercalate lexemes) = lexemes := by
        rw [Text.lexemes, lexer_other (by decide) (by decide)]
        exact ih h.2
      rw [List.intercalate_cons_of_ne_nil hlast, List.append_assoc, List.singleton_append,
        hfirst h.1 (noDigitFirst_cons (by decide) _), hspace]

/--
The tokens of a text are what a pattern matches in it, one match behind another. They are all the parts of the text
that are tokens, from left to right, and nothing else. Written with single spaces between them they are found again.
-/
theorem tokens_maximal
    : ∃ regex, Regex.ofText tokenPattern = .ok regex
      ∧ ∀ text, tokens text = Text.lexemeTexts regex.firstMatch text
        ∧ (∃ found : List Span, tokens text = found.map (fun span => String.ofList span.chars)
          ∧ found.Pairwise Span.Precedes
          ∧ ∀ span, span ∈ found ↔ span.text = text.toList ∧ IsToken span)
        ∧ tokens (" ".intercalate (tokens text)) = tokens text := by
  refine ⟨tokenRegex, ofText_tokenPattern, fun text => ⟨tokens_eq_matches text, ?_, ?_⟩⟩
  . refine ⟨spans lexer [] text.toList, ?_, Text.pairwise_spans lexer [] text.toList, ?_⟩
    . unfold tokens
      rw [← Text.map_chars_spans lexer [], List.map_map]
      rfl
    . intro span
      constructor
      . intro hspan
        exact ⟨(Text.text_of_mem_spans lexer hspan).1, isToken_of_mem_spans (.inl noDigitLast_nil) hspan⟩
      . rintro ⟨htext, htoken⟩
        rw [← htext]
        exact mem_spans_of_isToken htoken
  . have hlexemes : ∀ lexeme ∈ Text.lexemes lexer text.toList, IsToken ⟨[], lexeme, []⟩ := by
      rw [← Text.map_chars_spans lexer [], List.forall_mem_map]
      intro span hspan
      exact (isToken_of_mem_spans (.inl noDigitLast_nil) hspan).moved noDigitLast_nil noDigitFirst_nil
    unfold tokens
    rw [String.toList_intercalate, List.map_map]
    have hid : String.toList ∘ String.ofList = id := funext fun _ => String.toList_ofList
    rw [hid, List.map_id]
    exact congrArg (List.map String.ofList) (lexemes_intercalate hlexemes)

example : tokens "12\u0663+x7 .5)" = ["12\u0663", "+", "7", "5", ")"] := by decide +kernel

end Calculator
end TokenGrammar
