import Mathlib.Data.List.TakeWhile
import TokenGrammar.Proofs.Json.Language

/-!
This module contains how the tokens of the languages of JSON scalars are found in a text. What the lexers find is in
the language, and what is in the language is found where nothing behind it could belong to it.
-/

open scoped Computability

namespace TokenGrammar
namespace Json

open Pattern

theorem append_mem_stringTail {part tail : List Char} (hpart : part ∈ stringPart)
    (htail : tail ∈ stringTail)
    : part ++ tail ∈ stringTail := by
  rcases Language.mem_mul.mp htail with ⟨parts, hparts, quote, hquote, rfl⟩
  have hrounds : part ++ parts ∈ stringPart∗ := by
    rw [← Language.one_add_self_mul_kstar_eq_kstar]
    exact .inr (Language.append_mem_mul hpart hparts)
  rw [← List.append_assoc]
  exact Language.append_mem_mul hrounds hquote

theorem stringRest?_of_mem {front : List Char} (h : front ∈ stringTail) (rest : List Char)
    : stringRest? (front ++ rest) = some front.length := by
  rw [stringTail, Language.mem_mul] at h
  rcases h with ⟨_, ⟨parts, rfl, hparts⟩, _, ⟨_, rfl, rfl⟩, rfl⟩
  induction parts with
  | nil =>
    rw [List.flatten_nil, List.nil_append, List.cons_append, stringRest?_cons (by decide)]
    rfl
  | cons part parts ih =>
    have hothers := ih fun part hpart => hparts part (List.mem_cons_of_mem _ hpart)
    rw [List.flatten_cons, List.append_assoc, List.append_assoc, List.length_append]
    rw [List.append_assoc] at hothers
    rcases hparts part List.mem_cons_self with ⟨c, rfl, hquote, hslash⟩ | hescape
    . rw [List.singleton_append, stringRest?_cons hslash, if_neg (by simpa using hquote), hothers]
      simp
    . rcases Language.mem_mul.mp hescape with ⟨_, ⟨_, rfl, rfl⟩, _, ⟨c, rfl, hfeed⟩, rfl⟩
      rw [List.singleton_append, List.cons_append, List.cons_append, List.nil_append, stringRest?_escape,
        if_neg (by simpa using hfeed), hothers]
      simp

theorem mem_of_stringRest? {cs : List Char} {length : Nat} (h : stringRest? cs = some length)
    : cs.take length ∈ stringTail := by
  fun_induction stringRest? cs generalizing length with
  | case1 => cases h
  | case2 => cases h
  | case3 => cases h
  | case4 c rest hc ih =>
    rcases Option.map_eq_some_iff.mp h with ⟨length, hlength, rfl⟩
    have hpart : ['\\', c] ∈ stringPart := by
      apply Or.inr
      exact mem_oneOf_mul.mpr ⟨_, _, rfl, rfl, singleton_mem_oneOf.mpr (by simpa using hc)⟩
    exact append_mem_stringTail hpart (ih hlength)
  | case5 c rest hlast hescape hc =>
    cases h
    rw [beq_iff_eq.mp hc]
    exact Language.append_mem_mul (Language.nil_mem_kstar _) (singleton_mem_oneOf.mpr rfl)
  | case6 c rest hlast hescape hc ih =>
    rcases Option.map_eq_some_iff.mp h with ⟨length, hlength, rfl⟩
    have hpart : [c] ∈ stringPart := by
      apply Or.inl
      exact singleton_mem_oneOf.mpr ⟨by simpa using hc, ne_slash hlast hescape⟩
    exact append_mem_stringTail hpart (ih hlength)

section

variable {front rest : List Char}

theorem digitsLength_of_mem (h : front ∈ digit∗) (hrest : digitsLength rest = 0)
    : digitsLength (front ++ rest) = front.length := by
  unfold digitsLength at *
  rw [List.takeWhile_append_of_pos (mem_kstar_oneOf.mp h), List.length_append, hrest]
  rfl

theorem mem_of_digitsLength (h : digitsLength (front ++ rest) = front.length) : front ∈ digit∗ := by
  have hprefix := List.takeWhile_prefix Text.isDigit (l := front ++ rest)
  have hfront : (front ++ rest).takeWhile Text.isDigit = front :=
    (List.prefix_of_prefix_length_le hprefix (List.prefix_append front rest) (Nat.le_of_eq h)).eq_of_length h
  rw [digit, mem_kstar_oneOf]
  intro c hc
  rw [← hfront] at hc
  exact List.mem_takeWhile_imp hc

theorem mem_plus_digits : front ∈ digit * digit∗ ↔ front ≠ [] ∧ front ∈ digit∗ := by
  rw [digit, mem_oneOf_mul]
  constructor
  . rintro ⟨c, rest, rfl, hc, hrest⟩
    rw [mem_kstar_oneOf] at hrest ⊢
    exact ⟨List.cons_ne_nil c rest, List.forall_mem_cons.mpr ⟨hc, hrest⟩⟩
  . rintro ⟨hne, h⟩
    cases front with
    | nil => exact (hne rfl).elim
    | cons c rest =>
      rw [mem_kstar_oneOf, List.forall_mem_cons] at h
      exact ⟨c, rest, rfl, h.1, mem_kstar_oneOf.mpr h.2⟩

theorem signLength_cons (c : Char) (cs : List Char) : signLength (c :: cs) = if c = '-' then 1 else 0 := by
  unfold signLength
  split
  . next h =>
    cases h
    rfl
  . next h =>
    rw [if_neg]
    rintro rfl
    exact h cs rfl

theorem mem_sign (h : signLength (front ++ rest) = front.length) : front ∈ sign := by
  cases front with
  | nil => exact .inr rfl
  | cons c front =>
    rw [List.cons_append, signLength_cons] at h
    split at h
    . next hc =>
      rw [List.length_eq_zero_iff.mp (Nat.succ.inj h).symm]
      exact .inl (singleton_mem_oneOf.mpr hc)
    . cases h

theorem signLength_of_mem (h : front ∈ sign) (hrest : signLength rest = 0)
    : signLength (front ++ rest) = front.length := by
  rcases h with ⟨_, rfl, rfl⟩ | rfl
  . rfl
  . exact hrest

theorem wholeLength_cons (c : Char) (cs : List Char)
    : wholeLength (c :: cs) = if c = '0' then 1 else if '1' ≤ c ∧ c ≤ '9' then digitsLength cs + 1 else 0 := by
  unfold wholeLength
  simp

theorem mem_whole (h : wholeLength (front ++ rest) = front.length) (hne : front ≠ []) : front ∈ whole := by
  cases front with
  | nil => exact (hne rfl).elim
  | cons c front =>
    rw [List.cons_append, wholeLength_cons] at h
    split at h
    . next hc =>
      rw [List.length_eq_zero_iff.mp (Nat.succ.inj h).symm]
      exact .inl (singleton_mem_oneOf.mpr hc)
    . split at h
      . next hc => exact .inr (mem_oneOf_mul.mpr ⟨c, front, rfl, hc, mem_of_digitsLength (Nat.succ.inj h)⟩)
      . cases h

theorem wholeLength_of_mem (h : front ∈ whole) (hrest : digitsLength rest = 0)
    : wholeLength (front ++ rest) = front.length := by
  rcases h with ⟨_, rfl, rfl⟩ | h
  . rw [List.singleton_append, wholeLength_cons, if_pos rfl]
    rfl
  . rcases mem_oneOf_mul.mp h with ⟨c, digits, rfl, hc, hdigits⟩
    have hzero : c ≠ '0' := by
      rintro rfl
      exact absurd hc.1 (by decide)
    rw [List.cons_append, wholeLength_cons, if_neg hzero, if_pos hc, digitsLength_of_mem hdigits hrest]
    rfl

theorem mem_fraction (h : fractionLength (front ++ rest) = front.length) : front ∈ fraction := by
  cases front with
  | nil => exact .inr rfl
  | cons c front =>
    by_cases hpoint : c = '.'
    . rw [List.cons_append, hpoint, fractionLength_point] at h
      split at h
      . cases h
      . next hdigits =>
        have hlength := Nat.succ.inj h
        have hne : front ≠ [] := by
          rintro rfl
          exact hdigits hlength
        exact .inl (mem_oneOf_mul.mpr ⟨c, front, rfl, hpoint, mem_plus_digits.mpr
          ⟨hne, mem_of_digitsLength hlength⟩⟩)
    . rw [List.cons_append, fractionLength_of_ne hpoint] at h
      cases h

theorem fractionLength_of_mem (h : front ∈ fraction) (hdigits : digitsLength rest = 0)
    (hpoint : fractionLength rest = 0)
    : fractionLength (front ++ rest) = front.length := by
  rcases h with h | rfl
  . rcases mem_oneOf_mul.mp h with ⟨_, digits, rfl, rfl, hmem⟩
    rw [mem_plus_digits] at hmem
    rw [List.cons_append, fractionLength_point, digitsLength_of_mem hmem.2 hdigits, if_neg]
    . rfl
    . simpa using hmem.1
  . exact hpoint

theorem exists_exponentMark (front : List Char)
    : ∃ mark digits, front = mark ++ digits ∧ mark.length = exponentSign front ∧ mark ∈ exponentMark := by
  cases front with
  | nil => exact ⟨[], [], rfl, rfl, .inr rfl⟩
  | cons c front =>
    unfold exponentSign
    dsimp only
    split
    . next hc => exact ⟨[c], front, rfl, rfl, .inl (singleton_mem_oneOf.mpr (by simpa using hc))⟩
    . exact ⟨[], c :: front, rfl, rfl, .inr rfl⟩

theorem mem_exponent (h : exponentLength (front ++ rest) = front.length) : front ∈ exponent := by
  cases front with
  | nil => exact .inr rfl
  | cons c front =>
    by_cases hletter : c = 'e' ∨ c = 'E'
    . rw [List.cons_append, exponentLength_letter hletter] at h
      split at h
      . cases h
      . next hdigits =>
        have hne : front ≠ [] := by
          rintro rfl
          rw [List.length_singleton] at h
          omega
        rcases exists_exponentMark front with ⟨mark, digits, rfl, hmark, hmem⟩
        rw [exponentSign_append hne, ← hmark, List.append_assoc, List.drop_left] at h hdigits
        have hlength : digitsLength (digits ++ rest) = digits.length := by
          simp only [List.length_cons, List.length_append] at h
          omega
        have hsome : digits ≠ [] := by
          rintro rfl
          exact hdigits hlength
        have hplus := mem_plus_digits.mpr ⟨hsome, mem_of_digitsLength hlength⟩
        exact .inl (mem_oneOf_mul.mpr ⟨c, _, rfl, hletter, Language.append_mem_mul hmem hplus⟩)
    . rw [List.cons_append, exponentLength_of_ne hletter] at h
      cases h

theorem exponentSign_of_mem {mark digits : List Char} (hmark : mark ∈ exponentMark)
    (hdigits : digits ∈ digit * digit∗) (rest : List Char)
    : exponentSign (mark ++ (digits ++ rest)) = mark.length := by
  rcases hmark with ⟨c, rfl, hc⟩ | rfl
  . exact if_pos (by simpa using hc)
  . rcases mem_oneOf_mul.mp hdigits with ⟨c, digits, rfl, hc, _⟩
    apply if_neg
    intro hmark
    rw [Bool.or_eq_true, beq_iff_eq, beq_iff_eq] at hmark
    rcases hmark with rfl | rfl
    . exact absurd hc (by decide)
    . exact absurd hc (by decide)

theorem exponentLength_of_mem (h : front ∈ exponent) (hdigits : digitsLength rest = 0)
    (hletter : exponentLength rest = 0)
    : exponentLength (front ++ rest) = front.length := by
  rcases h with h | rfl
  . rcases mem_oneOf_mul.mp h with ⟨c, _, rfl, hc, hmem⟩
    rcases Language.mem_mul.mp hmem with ⟨mark, hmark, digits, hplus, rfl⟩
    rw [List.cons_append, exponentLength_letter hc, List.append_assoc, exponentSign_of_mem hmark hplus,
      List.drop_left]
    rw [mem_plus_digits] at hplus
    rw [digitsLength_of_mem hplus.2 hdigits, if_neg]
    . simp
    . simpa using hplus.1
  . exact hletter

theorem digitsLength_cons_of_not {c : Char} (hc : ¬ Text.isDigit c = true) (cs : List Char)
    : digitsLength (c :: cs) = 0 := by
  unfold digitsLength
  rw [List.takeWhile_cons_of_neg hc]
  rfl

-- the letter of an exponent is neither a digit nor a point, so it ends the digits and does not begin a fraction
theorem exponent_ends (h : front ∈ exponent) (hdigits : digitsLength rest = 0) (hpoint : fractionLength rest = 0)
    : digitsLength (front ++ rest) = 0 ∧ fractionLength (front ++ rest) = 0 := by
  rcases h with h | rfl
  . rcases mem_oneOf_mul.mp h with ⟨c, cs, rfl, hc, _⟩
    rcases hc with rfl | rfl
    . exact ⟨digitsLength_cons_of_not (by decide) _, fractionLength_of_ne (by decide) _⟩
    . exact ⟨digitsLength_cons_of_not (by decide) _, fractionLength_of_ne (by decide) _⟩
  . exact ⟨hdigits, hpoint⟩

theorem fraction_ends (h : front ∈ fraction) (hdigits : digitsLength rest = 0)
    : digitsLength (front ++ rest) = 0 := by
  rcases h with h | rfl
  . rcases mem_oneOf_mul.mp h with ⟨_, cs, rfl, rfl, _⟩
    exact digitsLength_cons_of_not (by decide) _
  . exact hdigits

theorem whole_begins (h : front ∈ whole) : ∃ c cs, front = c :: cs ∧ c ≠ '-' ∧ BeginsNumber c := by
  rcases h with ⟨_, rfl, rfl⟩ | h
  . exact ⟨_, [], rfl, by decide, by decide⟩
  . rcases mem_oneOf_mul.mp h with ⟨c, cs, rfl, hc, _⟩
    refine ⟨c, cs, rfl, ?_, .inr (.inr hc)⟩
    rintro rfl
    exact absurd hc.1 (by decide)

theorem BeginsNumber.ne_quote {c : Char} (h : BeginsNumber c) : c ≠ '\x22' := by
  rintro rfl
  exact absurd h (by decide)

theorem number_begins {cs : List Char} (h : cs ∈ ScalarKind.number.language)
    : ∃ c rest, cs = c :: rest ∧ BeginsNumber c := by
  rcases Language.mem_mul.mp h with ⟨mark, hmark, _, hunsigned, rfl⟩
  rcases Language.mem_mul.mp hunsigned with ⟨digits, hdigits, rest, _, rfl⟩
  rcases hmark with ⟨_, rfl, rfl⟩ | rfl
  . exact ⟨_, _, rfl, .inl rfl⟩
  . rcases whole_begins hdigits with ⟨c, cs, rfl, _, hc⟩
    exact ⟨c, _, rfl, hc⟩

/--
What the lexer of numbers finds is a number.
-/
theorem mem_of_numberLexer {lexeme : List Char} (h : numberLexer (lexeme ++ rest) = lexeme.length)
    (hne : lexeme ≠ [])
    : lexeme ∈ ScalarKind.number.language := by
  rcases numberLexer_parts h hne with
    ⟨sign, whole, fraction, exponent, rfl, hsome, hsign, hwhole, hfraction, hexponent⟩
  rw [List.append_assoc] at hsign
  exact Language.append_mem_mul (mem_sign hsign) (Language.append_mem_mul (mem_whole hwhole hsome)
    (Language.append_mem_mul (mem_fraction hfraction) (mem_exponent hexponent)))

/--
A number is found where neither a digit nor the beginning of a fraction or an exponent stands behind it.
-/
theorem numberLexer_of_mem {lexeme : List Char} (h : lexeme ∈ ScalarKind.number.language)
    (hdigits : digitsLength rest = 0) (hpoint : fractionLength rest = 0) (hletter : exponentLength rest = 0)
    : numberLexer (lexeme ++ rest) = lexeme.length := by
  rcases Language.mem_mul.mp h with ⟨sign, hsign, _, hunsigned, rfl⟩
  rcases Language.mem_mul.mp hunsigned with ⟨whole, hwhole, _, hdecimals, rfl⟩
  rcases Language.mem_mul.mp hdecimals with ⟨fraction, hfraction, exponent, hexponent, rfl⟩
  rcases exponent_ends hexponent hdigits hpoint with ⟨hdigits', hpoint'⟩
  have hends := fraction_ends hfraction hdigits'
  rcases whole_begins hwhole with ⟨c, cs, rfl, hc, _⟩
  have hunsign : signLength (c :: cs ++ (fraction ++ (exponent ++ rest))) = 0 := by
    rw [List.cons_append, signLength_cons, if_neg hc]
  simp only [List.append_assoc]
  rw [numberLexer_append (signLength_of_mem hsign hunsign) (wholeLength_of_mem hwhole hends)
    (List.cons_ne_nil c cs), fractionLength_of_mem hfraction hdigits' hpoint', List.drop_left,
    exponentLength_of_mem hexponent hdigits hletter]
  simp only [List.length_append]
  omega

end

end Json
end TokenGrammar
