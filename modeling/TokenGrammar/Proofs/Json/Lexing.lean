import TokenGrammar.Json.Token
import TokenGrammar.Proofs.Blanking

/-!
This module contains what the tokens of JSON texts depend on. The kind of a token is known from its first
character. Only numbers look at what is behind them; a character that could go on a number begins no token
itself unless it is a digit.
-/

namespace TokenGrammar
namespace Json

open Text

theorem stringRest?_cons {c : Char} (hc : c ≠ '\\') (rest : List Char)
    : stringRest? (c :: rest) = if c == '\x22' then some 1 else (stringRest? rest).map (· + 1) := by
  rw [stringRest?]
  . simp [hc]
  . simp [hc]

theorem stringRest?_bounds {cs : List Char} {length : Nat} (h : stringRest? cs = some length)
    : 0 < length ∧ length ≤ cs.length := by
  fun_induction stringRest? cs generalizing length with
  | case1 => cases h
  | case2 => cases h
  | case3 => cases h
  | case4 c rest hc ih =>
    rcases Option.map_eq_some_iff.mp h with ⟨length, hlength, rfl⟩
    have := ih hlength
    simp only [List.length_cons]
    omega
  | case5 c rest =>
    cases h
    simp
  | case6 c rest _ _ _ ih =>
    rcases Option.map_eq_some_iff.mp h with ⟨length, hlength, rfl⟩
    have := ih hlength
    simp only [List.length_cons]
    omega

theorem stringRest?_escape (c : Char) (rest : List Char)
    : stringRest? ('\\' :: c :: rest)
        = if c == '\n' then none else (stringRest? rest).map (· + 2) := rfl

-- the last cases of `stringRest?` are about the characters that the first ones do not take
theorem ne_slash {c : Char} {rest : List Char} (hlast : c = '\\' → rest = [] → False)
    (hescape : ∀ d tail, c = '\\' → rest = d :: tail → False)
    : c ≠ '\\' := by
  intro hc
  cases rest with
  | nil => exact hlast hc rfl
  | cons d tail => exact hescape d tail hc rfl

-- the quote that ends a string is found before anything behind it is looked at
theorem stringRest?_append {front rest : List Char} (h : stringRest? (front ++ rest) = some front.length)
    (more : List Char)
    : stringRest? (front ++ more) = some front.length := by
  fun_induction stringRest? front with
  | case1 => exact absurd (stringRest?_bounds h).1 (Nat.lt_irrefl 0)
  | case2 =>
    cases rest with
    | nil => cases h
    | cons c rest =>
      rw [List.cons_append, List.nil_append, stringRest?_escape] at h
      split at h
      . cases h
      . rcases Option.map_eq_some_iff.mp h with ⟨length, _, hlength⟩
        cases hlength
  | case3 c front hc =>
    rw [List.cons_append, List.cons_append, stringRest?_escape, if_pos hc] at h
    cases h
  | case4 c front hc ih =>
    rw [List.cons_append, List.cons_append, stringRest?_escape, if_neg hc] at h ⊢
    rcases Option.map_eq_some_iff.mp h with ⟨length, hlength, heq⟩
    have hfront : length = front.length := Nat.add_right_cancel heq
    rw [hfront] at hlength
    rw [ih hlength]
    rfl
  | case5 c front hlast hescape hc =>
    rw [List.cons_append, stringRest?_cons (ne_slash hlast hescape), if_pos hc] at h ⊢
    exact h
  | case6 c front hlast hescape hc ih =>
    rw [List.cons_append, stringRest?_cons (ne_slash hlast hescape), if_neg hc] at h ⊢
    rcases Option.map_eq_some_iff.mp h with ⟨length, hlength, heq⟩
    have hfront : length = front.length := Nat.add_right_cancel heq
    rw [hfront] at hlength
    rw [ih hlength]
    rfl

theorem digitsLength_le (cs : List Char) : digitsLength cs ≤ cs.length :=
  (List.takeWhile_sublist _).length_le

theorem fractionLength_point (cs : List Char)
    : fractionLength ('.' :: cs) = if digitsLength cs = 0 then 0 else digitsLength cs + 1 := by
  rw [fractionLength]
  cases digitsLength cs with
  | zero => rfl
  | succ count => rfl

theorem fractionLength_of_ne {c : Char} (hc : c ≠ '.') (cs : List Char)
    : fractionLength (c :: cs) = 0 := by
  rw [fractionLength]
  simp [hc]

/--
The number of characters of the sign of an exponent.
-/
def exponentSign : List Char → Nat
  | d :: _ => if d == '+' || d == '-' then 1 else 0
  | [] => 0

theorem exponentSign_le (cs : List Char) : exponentSign cs ≤ cs.length := by
  unfold exponentSign
  split
  . rw [List.length_cons]
    split
    . omega
    . omega
  . exact Nat.le_refl 0

theorem exponentSign_append {front : List Char} (hne : front ≠ []) (more : List Char)
    : exponentSign (front ++ more) = exponentSign front := by
  cases front with
  | nil => exact (hne rfl).elim
  | cons d front => rfl

theorem exponentLength_letter {c : Char} (hc : c = 'e' ∨ c = 'E') (cs : List Char)
    : exponentLength (c :: cs)
        =
      if digitsLength (cs.drop (exponentSign cs)) = 0 then 0
      else exponentSign cs + digitsLength (cs.drop (exponentSign cs)) + 1 := by
  have hletter : (c == 'e' || c == 'E') = true := by simpa using hc
  unfold exponentLength
  dsimp only
  rw [if_pos hletter]
  split
  . next hdigits => exact (if_pos hdigits).symm
  . next count hdigits =>
    have hne : digitsLength (cs.drop (exponentSign cs)) ≠ 0 := by
      intro hzero
      cases hzero.symm.trans hdigits
    rw [if_neg hne]
    exact congrArg (exponentSign cs + · + 1) hdigits.symm

theorem exponentLength_of_ne {c : Char} (hc : ¬ (c = 'e' ∨ c = 'E')) (cs : List Char)
    : exponentLength (c :: cs) = 0 := by
  have hletter : ¬ (c == 'e' || c == 'E') = true := by simpa using hc
  unfold exponentLength
  exact if_neg hletter

section

variable {front rest more : List Char}

theorem digitsLength_append (h : digitsLength (front ++ rest) = front.length)
    (hmore : digitsLength rest = 0 → digitsLength more = 0)
    : digitsLength (front ++ more) = front.length :=
  length_takeWhile_append h hmore

theorem digitsLength_append_eq_zero (hmore : digitsLength rest = 0 → digitsLength more = 0)
    (h : digitsLength (front ++ rest) = 0)
    : digitsLength (front ++ more) = 0 := by
  cases front with
  | nil => exact hmore h
  | cons c front =>
    unfold digitsLength at *
    rw [length_takeWhile_eq_zero] at h ⊢
    exact h

theorem wholeLength_append (h : wholeLength (front ++ rest) = front.length) (hne : front ≠ [])
    (hmore : digitsLength rest = 0 → digitsLength more = 0)
    : wholeLength (front ++ more) = front.length := by
  cases front with
  | nil => exact (hne rfl).elim
  | cons c front =>
    unfold wholeLength at *
    rw [List.cons_append] at h ⊢
    dsimp only at h ⊢
    split at h
    . next hzero =>
      rw [if_pos hzero]
      exact h
    . next hzero =>
      rw [if_neg hzero]
      split at h
      . next hdigit =>
        rw [if_pos hdigit, digitsLength_append (Nat.succ.inj h) hmore, List.length_cons]
      . cases h

theorem fractionLength_append (h : fractionLength (front ++ rest) = front.length)
    (hmore : digitsLength rest = 0 → digitsLength more = 0)
    (hnil : front = [] → fractionLength more = 0)
    : fractionLength (front ++ more) = front.length := by
  cases front with
  | nil => exact hnil rfl
  | cons c front =>
    by_cases hpoint : c = '.'
    . subst hpoint
      rw [List.cons_append, fractionLength_point] at h ⊢
      split at h
      . cases h
      . next hdigits =>
        rw [digitsLength_append (Nat.succ.inj h) hmore, ← Nat.succ.inj h, if_neg hdigits, ← h]
    . rw [List.cons_append, fractionLength_of_ne hpoint] at h
      cases h

theorem exponentLength_append (h : exponentLength (front ++ rest) = front.length)
    (hmore : digitsLength rest = 0 → digitsLength more = 0)
    (hnil : front = [] → exponentLength more = 0)
    : exponentLength (front ++ more) = front.length := by
  cases front with
  | nil => exact hnil rfl
  | cons c front =>
    by_cases hletter : c = 'e' ∨ c = 'E'
    . rw [List.cons_append, exponentLength_letter hletter] at h ⊢
      split at h
      . cases h
      . next hdigits =>
        have hne : front ≠ [] := by
          rintro rfl
          rw [List.length_singleton] at h
          omega
        have hle := exponentSign_le front
        rw [exponentSign_append hne, List.drop_append_of_le_length hle] at h hdigits ⊢
        have hfront : digitsLength (front.drop (exponentSign front) ++ rest)
            = (front.drop (exponentSign front)).length := by
          rw [List.length_drop]
          rw [List.length_cons] at h
          omega
        rw [hfront] at h hdigits
        rw [digitsLength_append hfront hmore, if_neg hdigits]
        exact h
    . rw [List.cons_append, exponentLength_of_ne hletter] at h
      cases h

theorem numberLexer_append {sign whole : List Char}
    (hsign : signLength (sign ++ (whole ++ rest)) = sign.length)
    (hwhole : wholeLength (whole ++ rest) = whole.length) (hne : whole ≠ [])
    : numberLexer (sign ++ (whole ++ rest))
        =
      sign.length + whole.length + fractionLength rest
        + exponentLength (rest.drop (fractionLength rest)) := by
  have hdrop : (sign ++ (whole ++ rest)).drop (sign.length + whole.length) = rest := by
    rw [← List.append_assoc, ← List.length_append, List.drop_left]
  unfold numberLexer
  dsimp only
  rw [hsign, List.drop_left, hwhole]
  cases hlength : whole.length with
  | zero => exact (hne (List.length_eq_zero_iff.mp hlength)).elim
  | succ count =>
    dsimp only
    rw [hlength] at hdrop
    rw [Nat.add_assoc sign.length count 1, hdrop, ← List.drop_drop, hdrop]

theorem signLength_append {lexeme : List Char} (hne : lexeme ≠ [])
    : signLength (lexeme ++ more) = signLength (lexeme ++ rest) := by
  cases lexeme with
  | nil => exact (hne rfl).elim
  | cons c lexeme =>
    unfold signLength
    by_cases hc : c = '-'
    . subst hc
      rfl
    . simp [hc]

theorem exists_append {cs : List Char} {front back : Nat} (h : cs.length = front + back)
    : ∃ before after, cs = before ++ after ∧ before.length = front ∧ after.length = back := by
  refine ⟨cs.take front, cs.drop front, (List.take_append_drop front cs).symm, ?_, ?_⟩
  . rw [List.length_take]
    omega
  . rw [List.length_drop]
    omega

theorem numberLexer_parts {lexeme : List Char} (h : numberLexer (lexeme ++ rest) = lexeme.length)
    (hne : lexeme ≠ [])
    : ∃ sign whole fraction exponent, lexeme = sign ++ (whole ++ (fraction ++ exponent)) ∧ whole ≠ []
        ∧ signLength (lexeme ++ rest) = sign.length
        ∧ wholeLength (whole ++ (fraction ++ (exponent ++ rest))) = whole.length
        ∧ fractionLength (fraction ++ (exponent ++ rest)) = fraction.length
        ∧ exponentLength (exponent ++ rest) = exponent.length := by
  unfold numberLexer at h
  dsimp only at h
  split at h
  . exact (hne (List.length_eq_zero_iff.mp h.symm)).elim
  . next count hwhole =>
    generalize signLength (lexeme ++ rest) = signCount at h hwhole
    generalize hfraction : fractionLength ((lexeme ++ rest).drop (signCount + count + 1)) = fractionCount
      at h
    generalize hexponent : exponentLength ((lexeme ++ rest).drop (signCount + count + 1 + fractionCount))
      = exponentCount at h
    have hlength : lexeme.length = signCount + ((count + 1) + (fractionCount + exponentCount)) := by omega
    rcases exists_append hlength with ⟨sign, unsigned, rfl, rfl, hunsigned⟩
    rcases exists_append hunsigned with ⟨whole, decimals, rfl, hcount, hdecimals⟩
    rcases exists_append hdecimals with ⟨fraction, exponent, rfl, rfl, rfl⟩
    simp only [Nat.add_assoc, ← hcount, List.append_assoc, ← List.drop_drop, List.drop_left]
      at hfraction hexponent hwhole
    refine ⟨sign, whole, fraction, exponent, rfl, ?_, rfl, ?_, hfraction, hexponent⟩
    . rintro rfl
      cases hcount
    . rw [hwhole, hcount]

-- the parts of a number are found one after another, and only the last one looks behind the number
theorem numberLexer_stable {lexeme : List Char} (h : numberLexer (lexeme ++ rest) = lexeme.length)
    (hne : lexeme ≠ []) (hmore : digitsLength rest = 0 → digitsLength more = 0)
    (hpoint : fractionLength more = 0) (hletter : exponentLength more = 0)
    : numberLexer (lexeme ++ more) = lexeme.length := by
  rcases numberLexer_parts h hne with
    ⟨sign, whole, fraction, exponent, rfl, hsome, hsign, hwhole, hfraction, hexponent⟩
  have hexponent' : exponentLength (exponent ++ more) = exponent.length :=
    exponentLength_append hexponent hmore fun _ => hletter
  have hdigits : digitsLength (exponent ++ rest) = 0 → digitsLength (exponent ++ more) = 0 :=
    digitsLength_append_eq_zero hmore
  have hfraction' : fractionLength (fraction ++ (exponent ++ more)) = fraction.length := by
    apply fractionLength_append hfraction hdigits
    intro _
    cases exponent with
    | nil => exact hpoint
    | cons c exponent =>
      apply fractionLength_of_ne
      rintro rfl
      rw [List.cons_append, exponentLength_of_ne (by decide)] at hexponent
      cases hexponent
  have hwhole' : wholeLength (whole ++ (fraction ++ (exponent ++ more))) = whole.length :=
    wholeLength_append hwhole hsome (digitsLength_append_eq_zero hdigits)
  rw [← signLength_append hne] at hsign
  simp only [List.append_assoc] at hsign ⊢
  rw [numberLexer_append hsign hwhole' hsome, hfraction', List.drop_left, hexponent']
  simp only [List.length_append]
  omega

end

theorem signLength_le (cs : List Char) : signLength cs ≤ cs.length := by
  unfold signLength
  split
  . simp
  . simp

theorem wholeLength_le (cs : List Char) : wholeLength cs ≤ cs.length := by
  unfold wholeLength
  split
  . next c rest =>
    have := digitsLength_le rest
    rw [List.length_cons]
    split
    . omega
    . split
      . omega
      . omega
  . simp

theorem fractionLength_le (cs : List Char) : fractionLength cs ≤ cs.length := by
  cases cs with
  | nil => simp [fractionLength]
  | cons c rest =>
    have := digitsLength_le rest
    by_cases hpoint : c = '.'
    . subst hpoint
      rw [fractionLength_point, List.length_cons]
      split
      . omega
      . omega
    . rw [fractionLength_of_ne hpoint]
      omega

theorem exponentLength_le (cs : List Char) : exponentLength cs ≤ cs.length := by
  cases cs with
  | nil => simp [exponentLength]
  | cons c rest =>
    by_cases hletter : c = 'e' ∨ c = 'E'
    . have hdigits := digitsLength_le (rest.drop (exponentSign rest))
      rw [List.length_drop] at hdigits
      rw [exponentLength_letter hletter, List.length_cons]
      split
      . omega
      . omega
    . rw [exponentLength_of_ne hletter]
      omega

theorem numberLexer_le (cs : List Char) : numberLexer cs ≤ cs.length := by
  unfold numberLexer
  dsimp only
  split
  . omega
  . next count hwhole =>
    have hsign := signLength_le cs
    have hle := wholeLength_le (cs.drop (signLength cs))
    have hfraction := fractionLength_le (cs.drop (signLength cs + count + 1))
    have hexponent := exponentLength_le (cs.drop (signLength cs + count + 1
      + fractionLength (cs.drop (signLength cs + count + 1))))
    rw [List.length_drop] at hle hfraction hexponent
    omega

theorem exists_constant {cs : List Char} (h : constantLexer cs ≠ 0)
    : ∃ name ∈ constants, name.toList <+: cs ∧ constantLexer cs = name.toList.length := by
  unfold constantLexer at h ⊢
  cases hname : constants.find? fun name => name.toList.isPrefixOf cs with
  | none =>
    rw [hname] at h
    exact (h rfl).elim
  | some name =>
    refine ⟨name, List.mem_of_find?_eq_some hname, ?_, ?_⟩
    . simpa using List.find?_some hname
    . rw [String.length_toList]
      rfl

theorem exists_constant_eq {lexeme rest : List Char}
    (h : constantLexer (lexeme ++ rest) = lexeme.length) (hne : lexeme ≠ [])
    : ∃ name ∈ constants, name.toList = lexeme := by
  have hfound : constantLexer (lexeme ++ rest) ≠ 0 := by
    rw [h]
    simpa using hne
  rcases exists_constant hfound with ⟨name, hname, hprefix, hlength⟩
  refine ⟨name, hname, ?_⟩
  exact (List.prefix_of_prefix_length_le hprefix (List.prefix_append lexeme rest) (by omega)).eq_of_length
    (by omega)

theorem constantLexer_append {lexeme rest : List Char}
    (h : constantLexer (lexeme ++ rest) = lexeme.length) (hne : lexeme ≠ []) (more : List Char)
    : constantLexer (lexeme ++ more) = lexeme.length := by
  rcases exists_constant_eq h hne with ⟨name, hname, rfl⟩
  simp only [constants, List.mem_cons, List.not_mem_nil, or_false] at hname
  rcases hname with rfl | rfl | rfl
  . rfl
  . rfl
  . rfl

theorem stringLexer_of_ne {c : Char} (hc : c ≠ '\x22') (rest : List Char)
    : stringLexer (c :: rest) = 0 := by
  rw [stringLexer]
  simp [hc]

/--
The first characters of numbers.
-/
def BeginsNumber (c : Char) : Prop := c = '-' ∨ c = '0' ∨ '1' ≤ c ∧ c ≤ '9'

instance (c : Char) : Decidable (BeginsNumber c) := inferInstanceAs (Decidable (_ ∨ _))

theorem numberLexer_of_not {c : Char} (hc : ¬ BeginsNumber c) (rest : List Char)
    : numberLexer (c :: rest) = 0 := by
  unfold BeginsNumber at hc
  rw [not_or, not_or] at hc
  have hsign : signLength (c :: rest) = 0 := by
    rw [signLength]
    simp [hc.1]
  have hwhole : wholeLength (c :: rest) = 0 := by
    unfold wholeLength
    dsimp only
    rw [if_neg (by simpa using hc.2.1), if_neg (by simpa using hc.2.2)]
  unfold numberLexer
  dsimp only
  rw [hsign, List.drop_zero, hwhole]

theorem markLexer_of_not {c : Char} (hc : c ∉ marks) (rest : List Char) : markLexer (c :: rest) = 0 := by
  unfold markLexer
  dsimp only
  exact if_neg (by simpa using hc)

theorem markLexer_of_mem {c : Char} (hc : c ∈ marks) (rest : List Char) : markLexer (c :: rest) = 1 := by
  unfold markLexer
  dsimp only
  exact if_pos (by simpa using hc)

theorem constantLexer_of_not {c : Char} (hc : c ∉ ['t', 'f', 'n']) (rest : List Char)
    : constantLexer (c :: rest) = 0 := by
  have hheads : ∀ name ∈ constants, name.toList.head? ∈ [some 't', some 'f', some 'n'] := by decide
  apply Decidable.byContradiction
  intro hfound
  rcases exists_constant hfound with ⟨name, hname, ⟨more, hmore⟩, _⟩
  have hhead := hheads name hname
  cases hletters : name.toList with
  | nil =>
    rw [hletters] at hhead
    exact absurd hhead (by decide)
  | cons d letters =>
    rw [hletters, List.cons_append] at hmore
    cases hmore
    rw [hletters] at hhead
    exact hc (by simpa using hhead)

/--
The lexer for tokens that begin with a character.
-/
def lexerFor (c : Char) : Lexer :=
  if c = '\x22' then stringLexer
  else if BeginsNumber c then numberLexer
  else if c ∈ marks then markLexer
  else constantLexer

theorem lexer_cons (c : Char) (rest : List Char) : lexer (c :: rest) = lexerFor c (c :: rest) := by
  have hmarks : ∀ c ∈ marks, ¬ BeginsNumber c := by simp [marks, BeginsNumber]
  have hconstants : ∀ c ∈ ['t', 'f', 'n'], ¬ BeginsNumber c ∧ c ∉ marks := by
    simp [marks, BeginsNumber]
  have hnone : firstLexeme [] (c :: rest) = 0 := rfl
  unfold lexer lexerFor
  by_cases hstring : c = '\x22'
  . subst hstring
    rw [if_pos rfl]
    apply firstLexeme_of_others
    rw [firstLexeme_of_zero (numberLexer_of_not (by decide) rest),
      firstLexeme_of_zero (markLexer_of_not (by decide) rest),
      firstLexeme_of_zero (constantLexer_of_not (by decide) rest), hnone]
  . rw [if_neg hstring, firstLexeme_of_zero (stringLexer_of_ne hstring rest)]
    by_cases hnumber : BeginsNumber c
    . rw [if_pos hnumber]
      apply firstLexeme_of_others
      have hmark : c ∉ marks := fun hmem => hmarks c hmem hnumber
      have hconstant : c ∉ ['t', 'f', 'n'] := fun hmem => (hconstants c hmem).1 hnumber
      rw [firstLexeme_of_zero (markLexer_of_not hmark rest),
        firstLexeme_of_zero (constantLexer_of_not hconstant rest), hnone]
    . rw [if_neg hnumber, firstLexeme_of_zero (numberLexer_of_not hnumber rest)]
      by_cases hmem : c ∈ marks
      . rw [if_pos hmem]
        apply firstLexeme_of_others
        have hconstant : c ∉ ['t', 'f', 'n'] := fun hletter => (hconstants c hletter).2 hmem
        rw [firstLexeme_of_zero (constantLexer_of_not hconstant rest), hnone]
      . rw [if_neg hmem, firstLexeme_of_zero (markLexer_of_not hmem rest)]
        exact firstLexeme_of_others hnone constantLexer

/--
The character begins no token.
-/
def Other (c : Char) : Prop :=
  c ≠ '\x22' ∧ ¬ BeginsNumber c ∧ c ∉ marks ∧ c ∉ ['t', 'f', 'n']

instance (c : Char) : Decidable (Other c) := inferInstanceAs (Decidable (_ ∧ _ ∧ _ ∧ _))

theorem lexer_of_other {c : Char} (hc : Other c) (rest : List Char) : lexer (c :: rest) = 0 := by
  rcases hc with ⟨hstring, hnumber, hmem, hconstant⟩
  rw [lexer_cons, lexerFor, if_neg hstring, if_neg hnumber, if_neg hmem]
  exact constantLexer_of_not hconstant rest

theorem stringLexer_quote (rest : List Char)
    : stringLexer ('\x22' :: rest) = (stringRest? rest).elim 0 (· + 1) := rfl

theorem lexerFor_le (c : Char) (rest : List Char) : lexerFor c (c :: rest) ≤ rest.length + 1 := by
  unfold lexerFor
  split
  . next hstring =>
    subst hstring
    rw [stringLexer_quote]
    cases hrest : stringRest? rest with
    | none => exact Nat.zero_le _
    | some length => exact Nat.succ_le_succ (stringRest?_bounds hrest).2
  . split
    . exact numberLexer_le (c :: rest)
    . split
      . next hmem =>
        rw [markLexer_of_mem hmem]
        omega
      . by_cases hfound : constantLexer (c :: rest) = 0
        . rw [hfound]
          exact Nat.zero_le _
        . rcases exists_constant hfound with ⟨name, _, hprefix, hlength⟩
          rw [hlength]
          exact hprefix.length_le

theorem lexerFor_stable {c : Char} {lexeme rest : List Char}
    (h : lexerFor c (c :: (lexeme ++ rest)) = lexeme.length + 1) {more : List Char}
    (hmore : digitsLength rest = 0 → digitsLength more = 0) (hpoint : fractionLength more = 0)
    (hletter : exponentLength more = 0)
    : lexerFor c (c :: (lexeme ++ more)) = lexeme.length + 1 := by
  have hne : c :: lexeme ≠ [] := List.cons_ne_nil c lexeme
  unfold lexerFor at *
  split at h
  . next hstring =>
    rw [if_pos hstring]
    subst hstring
    rw [stringLexer_quote] at h ⊢
    cases hrest : stringRest? (lexeme ++ rest) with
    | none =>
      rw [hrest] at h
      cases h
    | some length =>
      rw [hrest] at h
      rw [Nat.succ.inj h] at hrest
      rw [stringRest?_append hrest more]
      rfl
  . next hstring =>
    rw [if_neg hstring]
    split at h
    . next hnumber =>
      rw [if_pos hnumber]
      exact numberLexer_stable h hne hmore hpoint hletter
    . next hnumber =>
      rw [if_neg hnumber]
      split at h
      . next hmem =>
        rw [if_pos hmem, markLexer_of_mem hmem]
        rwa [markLexer_of_mem hmem] at h
      . next hmem =>
        rw [if_neg hmem]
        exact constantLexer_append h hne more

/--
A number ends where there is no digit, no point and no letter of an exponent behind it. None of these
characters but a digit begins a token, so none comes to be there when the others are blanked.
-/
theorem tolerant_lexer : lexer.Tolerant where
  space := lexer_of_other (by decide)
  fits := by
    intro cs
    cases cs with
    | nil => exact Nat.le_refl 0
    | cons c rest =>
      rw [lexer_cons]
      exact lexerFor_le c rest
  stable := by
    intro lexeme hne rest h
    have hdigits : digitsLength rest = 0 → digitsLength (blanked lexer rest) = 0 :=
      length_takeWhile_blanked (by decide)
    have hother {c : Char} (hc : Other c ∧ c ≠ ' ') : (blanked lexer rest).head? ≠ some c :=
      head?_blanked_ne (lexer_of_other hc.1) hc.2 rest
    have hpoint : fractionLength (blanked lexer rest) = 0 := by
      have hhead := hother (show Other '.' ∧ _ by decide)
      cases hblanked : blanked lexer rest with
      | nil => rfl
      | cons d more =>
        rw [hblanked, List.head?_cons, Ne, Option.some.injEq] at hhead
        exact fractionLength_of_ne hhead more
    have hletter : exponentLength (blanked lexer rest) = 0 := by
      have hlower := hother (show Other 'e' ∧ _ by decide)
      have hupper := hother (show Other 'E' ∧ _ by decide)
      cases hblanked : blanked lexer rest with
      | nil => rfl
      | cons d more =>
        rw [hblanked, List.head?_cons, Ne, Option.some.injEq] at hlower hupper
        exact exponentLength_of_ne (not_or.mpr ⟨hlower, hupper⟩) more
    cases lexeme with
    | nil => exact (hne rfl).elim
    | cons c lexeme =>
      rw [List.cons_append, lexer_cons] at h ⊢
      exact lexerFor_stable h hdigits hpoint hletter

end Json
end TokenGrammar
