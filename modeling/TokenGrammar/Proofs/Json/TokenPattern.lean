import TokenGrammar.Proofs.Json.Scanning
import TokenGrammar.Proofs.Pattern.FirstMatch

/-!
This module contains the pattern of the tokens of JSON texts. Its first match at the start of a text is the lexeme
that the lexer finds there.
-/

namespace TokenGrammar
namespace Json

open Pattern
open ScalarKind (positive negative character)

/--
Strings, numbers, marks and constants, as alternatives of one pattern.
-/
def tokenPattern : String :=
  "\x22(?:[^\x22\\\\]|\\\\.)*\x22|-?(?:0|[1-9]\\d*)(?:\\.\\d+)?(?:[eE][+-]?\\d+)?|[\x7b\x7d\\[\\]:,]|true|false|null"

def markSet : CharSet := ⟨marks.map fun mark => .range mark.toNat mark.toNat, false, .exact⟩

/--
The characters of a text, one after another.
-/
def wordRegex (word : List Char) : Regex := .sequence (word.map fun c => .one (.single .exact c.toNat))

def tokenRegex : Regex :=
  .alt ScalarKind.stringRegex (.alt ScalarKind.numberRegex (.alt (.one markSet)
    (.choice (constants.map fun name => wordRegex name.toList))))

theorem ofText_tokenPattern : Regex.ofText tokenPattern = .ok tokenRegex :=
  eq_ok_of_toOption (by decide +kernel)

/--
A character of a string, or a backslash with the character that it takes with it.
-/
def runPart (left : Remainder) : Remainder :=
  fun cs => (single (fun c => c ≠ '\x22' ∧ c ≠ '\\') left cs).or
    (single (· = '\\') (single (· ≠ '\n') left) cs)

/--
What is left behind the quote that ends a string.
-/
def runQuote (left : Remainder) : Remainder := repeated runPart (single (· = '\x22') left)

def runDigits (left : Remainder) : Remainder := repeated (single (Text.isDigit · = true)) left

/--
At least one digit.
-/
def runSomeDigits (left : Remainder) : Remainder := single (Text.isDigit · = true) (runDigits left)

def runWhole (left : Remainder) : Remainder :=
  fun cs => (single (· = '0') left cs).or (single (fun c => '1' ≤ c ∧ c ≤ '9') (runDigits left) cs)

def runFraction : Remainder → Remainder := perhaps fun left => single (· = '.') (runSomeDigits left)

def runExponent : Remainder → Remainder :=
  perhaps fun left => single (fun c => c = 'e' ∨ c = 'E')
    (perhaps (single fun c => c = '+' ∨ c = '-') (runSomeDigits left))

def runNumber (left : Remainder) : Remainder :=
  perhaps (single (· = '-')) (runWhole (runFraction (runExponent left)))

theorem runs_character (d : Char) : (positive [character d.toNat]).search.Runs (single (· = d)) :=
  runs_one fun _ => ScalarKind.contains_character

theorem runs_either (d e : Char)
    : (positive [character d.toNat, character e.toNat]).search.Runs (single fun c => c = d ∨ c = e) :=
  runs_one fun _ => ScalarKind.contains_either

theorem runs_stringRegex
    : ScalarKind.stringRegex.search.Runs fun left => single (· = '\x22') (runQuote left) := by
  have hplain : (negative [character '\x22'.toNat, character '\\'.toNat]).search.Runs
      (single fun c => c ≠ '\x22' ∧ c ≠ '\\') :=
    runs_one fun _ => ScalarKind.contains_neither
  have hescaped : (negative [character '\n'.toNat]).search.Runs (single (· ≠ '\n')) :=
    runs_one fun _ => ScalarKind.contains_other
  have hpart := hplain.alt ((runs_character '\\').cat hescaped)
  exact (runs_character '\x22').cat (hpart.greedy.cat (runs_character '\x22'))

theorem runs_numberRegex : ScalarKind.numberRegex.search.Runs runNumber := by
  have hpositive : (positive [.range 49 57]).search.Runs (single fun c => '1' ≤ c ∧ c ≤ '9') :=
    runs_one fun _ => ScalarKind.contains_range
  have hdigit : ScalarKind.digit.search.Runs (single (Text.isDigit · = true)) :=
    runs_one fun _ => ScalarKind.contains_digit
  have hdigits := hdigit.cat hdigit.greedy
  have hwhole := (runs_character '0').alt (hpositive.cat hdigit.greedy)
  have hfraction := ((runs_character '.').cat hdigits).perhaps
  have hexponent := ((runs_either 'e' 'E').cat ((runs_either '+' '-').perhaps.cat hdigits)).perhaps
  exact (runs_character '-').perhaps.cat (hwhole.cat (hfraction.cat hexponent))

theorem runs_wordRegex (word : List Char) : (wordRegex word).search.Runs (spelled word) := by
  unfold wordRegex
  induction word with
  | nil => exact fun _ _ h => h
  | cons c word ih =>
    have hc : (Regex.one (.single .exact c.toNat)).search.Runs (single (· = c)) :=
      runs_one fun d => by rw [CharSet.contains_single, beq_iff_eq]
    cases word with
    | nil => exact hc
    | cons d word => exact hc.cat ih

theorem runs_tokenRegex
    : tokenRegex.search.Runs fun left cs =>
        (single (· = '\x22') (runQuote left) cs).or ((runNumber left cs).or ((single (· ∈ marks) left cs).or
          ((spelled "true".toList left cs).or ((spelled "false".toList left cs).or
            (spelled "null".toList left cs))))) := by
  have hmarks : (Regex.one markSet).search.Runs (single (· ∈ marks)) := by
    apply runs_one
    intro c
    simp [markSet, marks, CharSet.contains, ClassItem.contains, Folding.variants, ← Char.toNat_inj]
    omega
  have hconstants := (runs_wordRegex "true".toList).alt ((runs_wordRegex "false".toList).alt
    (runs_wordRegex "null".toList))
  exact runs_stringRegex.alt (runs_numberRegex.alt (hmarks.alt hconstants))

theorem runQuote_cons {c : Char} (hc : c ≠ '\\') (rest : List Char)
    : runQuote allLeft (c :: rest) = if c = '\x22' then some rest.length else runQuote allLeft rest := by
  rw [runQuote, repeated]
  by_cases hquote : c = '\x22'
  . simp [runPart, single, hquote, allLeft]
  . simp [runPart, single, hc, hquote]

theorem runQuote_escape (c : Char) (rest : List Char)
    : runQuote allLeft ('\\' :: c :: rest) = if c = '\n' then none else runQuote allLeft rest := by
  rw [runQuote, repeated]
  by_cases hfeed : c = '\n'
  . simp [runPart, single, hfeed]
  . have hlonger : ¬ rest.length + 1 + 1 ≤ rest.length := by omega
    simp only [runPart, single, ne_eq, Char.reduceEq, not_false_eq_true, not_true_eq_false, and_false,
      ↓reduceIte, hfeed, List.length_cons, Option.none_or, Option.or_none, ite_eq_left_iff, not_lt, hlonger,
      IsEmpty.forall_iff]

theorem runQuote_eq (cs : List Char) : runQuote allLeft cs = (stringRest? cs).map (cs.length - ·) := by
  fun_induction stringRest? cs with
  | case1 =>
    rw [runQuote, repeated]
    rfl
  | case2 =>
    rw [runQuote, repeated]
    simp [runPart, single]
  | case3 c rest hc => rw [runQuote_escape, if_pos (by simpa using hc), Option.map_none]
  | case4 c rest hc ih =>
    rw [runQuote_escape, if_neg (by simpa using hc), ih, Option.map_map]
    refine congrArg (Option.map · _) (funext fun length => ?_)
    simp
  | case5 c rest hlast hescape hc =>
    rw [beq_iff_eq.mp hc, runQuote_cons (by decide), if_pos rfl]
    rfl
  | case6 c rest hlast hescape hc ih =>
    rw [runQuote_cons (ne_slash hlast hescape), if_neg (by simpa using hc), ih, Option.map_map]
    refine congrArg (Option.map · _) (funext fun length => ?_)
    simp

section

variable {left : Remainder} (h : ∀ cs, (left cs).isSome = true) (cs : List Char)

include h

theorem runDigits_eq
    : runDigits left cs = left (cs.drop (digitsLength cs)) := by
  have hdrop : cs.drop (cs.takeWhile Text.isDigit).length = cs.dropWhile Text.isDigit :=
    calc
      cs.drop (cs.takeWhile Text.isDigit).length
          = (cs.takeWhile Text.isDigit ++ cs.dropWhile Text.isDigit).drop (cs.takeWhile Text.isDigit).length := by
        rw [List.takeWhile_append_dropWhile]
      _ = cs.dropWhile Text.isDigit := List.drop_left
  unfold runDigits digitsLength
  rw [repeated_single _ h, hdrop]
  simp only [Bool.decide_eq_true]

theorem runSomeDigits_eq
    : runSomeDigits left cs
        = if digitsLength cs = 0 then none else left (cs.drop (digitsLength cs)) := by
  unfold runSomeDigits
  cases cs with
  | nil => rfl
  | cons c rest =>
    rw [single, runDigits_eq h]
    by_cases hc : Text.isDigit c = true
    . rw [if_pos hc]
      have hlength : digitsLength (c :: rest) = digitsLength rest + 1 := by
        unfold digitsLength
        rw [List.takeWhile_cons_of_pos hc, List.length_cons]
      rw [hlength]
      rfl
    . rw [if_neg hc, digitsLength_cons_of_not hc]
      rfl

theorem runSign_eq
    : perhaps (single fun c => c = '+' ∨ c = '-') (runSomeDigits left) cs
        = runSomeDigits left (cs.drop (exponentSign cs)) := by
  unfold perhaps
  cases cs with
  | nil => rfl
  | cons c rest =>
    rw [single]
    by_cases hc : c = '+' ∨ c = '-'
    . -- a sign that is left out is no digit either
      have hdigit : ¬ Text.isDigit c = true := by
        rcases hc with rfl | rfl
        . decide
        . decide
      have hnone : runSomeDigits left (c :: rest) = none := by
        rw [runSomeDigits_eq h, digitsLength_cons_of_not hdigit]
        rfl
      have hsign : exponentSign (c :: rest) = 1 := if_pos (by simpa using hc)
      rw [if_pos hc, hnone, Option.or_none, hsign]
      rfl
    . have hsign : exponentSign (c :: rest) = 0 := if_neg (by simpa using hc)
      rw [if_neg hc, hsign]
      rfl

theorem runFraction_eq
    : runFraction left cs = left (cs.drop (fractionLength cs)) := by
  unfold runFraction perhaps
  cases cs with
  | nil => rfl
  | cons c rest =>
    dsimp only
    rw [single]
    by_cases hc : c = '.'
    . rw [if_pos hc, hc, fractionLength_point, runSomeDigits_eq h]
      split
      . rfl
      . rw [List.drop_succ_cons, Option.or_of_isSome (h _)]
    . rw [if_neg hc, fractionLength_of_ne hc]
      rfl

theorem runWhole_eq
    : runWhole left cs = if wholeLength cs = 0 then none else left (cs.drop (wholeLength cs)) := by
  unfold runWhole
  cases cs with
  | nil => rfl
  | cons c rest =>
    rw [wholeLength_cons, single, single]
    by_cases hzero : c = '0'
    . rw [if_pos hzero, if_pos hzero, Option.or_of_isSome (h _)]
      rfl
    . rw [if_neg hzero, if_neg hzero]
      by_cases hdigit : '1' ≤ c ∧ c ≤ '9'
      . rw [if_pos hdigit, if_pos hdigit, runDigits_eq h]
        rfl
      . rw [if_neg hdigit, if_neg hdigit]
        rfl

theorem runSigned_eq
    : perhaps (single (· = '-')) (runWhole left) cs = runWhole left (cs.drop (signLength cs)) := by
  unfold perhaps
  cases cs with
  | nil => rfl
  | cons c rest =>
    rw [single, signLength_cons]
    by_cases hc : c = '-'
    . have hnone : runWhole left (c :: rest) = none := by
        rw [runWhole_eq h, hc, wholeLength_cons]
        rfl
      rw [if_pos hc, if_pos hc, hnone, Option.or_none]
      rfl
    . rw [if_neg hc, if_neg hc]
      rfl

end

theorem runExponent_eq (cs : List Char)
    : runExponent allLeft cs = allLeft (cs.drop (exponentLength cs)) := by
  unfold runExponent perhaps
  cases cs with
  | nil => rfl
  | cons c rest =>
    dsimp only
    rw [single]
    by_cases hc : c = 'e' ∨ c = 'E'
    . rw [if_pos hc, exponentLength_letter hc]
      change (perhaps (single fun c => c = '+' ∨ c = '-') (runSomeDigits allLeft) rest).or _ = _
      rw [runSign_eq (fun _ => rfl), runSomeDigits_eq (fun _ => rfl)]
      split
      . rfl
      . rw [List.drop_succ_cons, List.drop_drop]
        rfl
    . rw [if_neg hc, exponentLength_of_ne hc]
      rfl

theorem runNumber_eq (cs : List Char) : runNumber allLeft cs = behind numberLexer cs := by
  have hexponent (cs : List Char) : (runExponent allLeft cs).isSome = true := by
    rw [runExponent_eq]
    rfl
  have hfraction (cs : List Char) : (runFraction (runExponent allLeft) cs).isSome = true := by
    rw [runFraction_eq hexponent]
    exact hexponent _
  unfold runNumber
  rw [runSigned_eq hfraction, runWhole_eq hfraction, runFraction_eq hexponent, runExponent_eq]
  cases hwhole : wholeLength (cs.drop (signLength cs)) with
  | zero =>
    have hlexer : numberLexer cs = 0 := by
      unfold numberLexer
      dsimp only
      rw [hwhole]
    rw [if_pos rfl, behind_of_zero hlexer]
  | succ count =>
    have hlexer : numberLexer cs = signLength cs + count + 1 + fractionLength (cs.drop (signLength cs + count + 1))
        + exponentLength (cs.drop (signLength cs + count + 1
          + fractionLength (cs.drop (signLength cs + count + 1)))) := by
      unfold numberLexer
      dsimp only
      rw [hwhole]
    rw [if_neg (Nat.succ_ne_zero count), behind_of_eq hlexer (by omega)]
    simp only [allLeft, List.drop_drop, List.length_drop, ← Nat.add_assoc]

theorem behind_markLexer (cs : List Char) : behind markLexer cs = single (· ∈ marks) allLeft cs := by
  cases cs with
  | nil => rfl
  | cons c rest =>
    rw [single]
    by_cases hc : c ∈ marks
    . rw [if_pos hc, behind_of_eq (markLexer_of_mem hc rest) Nat.one_ne_zero]
      rfl
    . rw [if_neg hc, behind_of_zero (markLexer_of_not hc rest)]

theorem behind_stringLexer (cs : List Char)
    : behind stringLexer cs = single (· = '\x22') (runQuote allLeft) cs := by
  cases cs with
  | nil => rfl
  | cons c rest =>
    rw [single, runQuote_eq]
    by_cases hc : c = '\x22'
    . have hlexer := stringLexer_quote rest
      rw [if_pos hc, hc]
      cases hlength : stringRest? rest with
      | none =>
        rw [hlength] at hlexer
        rw [behind_of_zero hlexer, Option.map_none]
      | some length =>
        rw [hlength] at hlexer
        rw [behind_of_eq hlexer (Nat.succ_ne_zero length)]
        simp
    . rw [if_neg hc, behind_of_zero (stringLexer_of_ne hc rest)]

theorem behind_find {names : List String} (h : "" ∉ names) (cs : List Char)
    : behind (fun cs => (names.find? fun name => name.toList.isPrefixOf cs).elim 0 String.length) cs
        = names.foldr (fun name found => (spelled name.toList allLeft cs).or found) none := by
  induction names with
  | nil => rfl
  | cons name names ih =>
    rw [List.mem_cons, not_or] at h
    have hne : name.length ≠ 0 := by simpa using Ne.symm h.1
    rw [List.foldr_cons, ← ih h.2, spelled_eq]
    by_cases hprefix : name.toList.isPrefixOf cs = true
    . have hfind : (name :: names).find? (fun name => name.toList.isPrefixOf cs) = some name :=
        List.find?_cons_of_pos hprefix
      rw [behind_of_eq (congrArg (Option.elim · 0 String.length) hfind) hne, if_pos hprefix, allLeft,
        List.length_drop, String.length_toList]
      rfl
    . have hfind : (name :: names).find? (fun name => name.toList.isPrefixOf cs)
          = names.find? fun name => name.toList.isPrefixOf cs :=
        List.find?_cons_of_neg hprefix
      rw [if_neg hprefix]
      unfold behind
      simp only [hfind]
      rfl

theorem behind_constantLexer (cs : List Char)
    : behind constantLexer cs
        =
      (spelled "true".toList allLeft cs).or ((spelled "false".toList allLeft cs).or
        (spelled "null".toList allLeft cs)) := by
  unfold constantLexer
  rw [behind_find (by decide), constants, List.foldr_cons, List.foldr_cons, List.foldr_cons, List.foldr_nil,
    Option.or_none]

/--
The first match of the pattern at the start of a text is what the lexer finds there.
-/
theorem firstMatch_tokenRegex : tokenRegex.firstMatch = lexer := by
  funext cs
  rw [Regex.firstMatch_eq runs_tokenRegex, ← elim_behind (tolerant_lexer.fits cs)]
  unfold lexer
  rw [behind_firstLexeme, behind_firstLexeme, behind_firstLexeme, behind_firstLexeme, behind_stringLexer,
    ← runNumber_eq, behind_markLexer, behind_constantLexer]
  have hnone : behind (Text.firstLexeme []) cs = none := rfl
  rw [hnone, Option.or_none]

/--
The tokens of a text are the matches of the pattern, one behind another.
-/
theorem tokens_eq_matches (text : String) : tokens text = Text.lexemeTexts tokenRegex.firstMatch text := by
  rw [firstMatch_tokenRegex]
  rfl

end Json
end TokenGrammar
