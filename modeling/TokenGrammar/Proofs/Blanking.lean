import TokenGrammar.Text.Scan

/-!
This module contains the characters of a text that belong to none of its lexemes, and texts in which there
are blanks in their place. The lexemes stay the same, provided that the lexer does not look at more of such
characters than that they end a lexeme.
-/

namespace TokenGrammar
namespace Text

/--
The characters of a text outside of its lexemes.
-/
def strays (lexer : Lexer) : List Char → List Char
  | [] => []
  | c :: rest =>
    match lexer (c :: rest) with
    | 0 => c :: strays lexer rest
    | length + 1 => strays lexer (rest.drop length)
termination_by cs => cs.length
decreasing_by
  · simp
  · simp only [List.length_cons, List.length_drop]
    omega

/--
The text with a space in the place of every character outside of its lexemes.
-/
def blanked (lexer : Lexer) : List Char → List Char
  | [] => []
  | c :: rest =>
    match lexer (c :: rest) with
    | 0 => ' ' :: blanked lexer rest
    | length + 1 => c :: rest.take length ++ blanked lexer (rest.drop length)
termination_by cs => cs.length
decreasing_by
  · simp
  · simp only [List.length_cons, List.length_drop]
    omega

/--
A lexeme does not begin with a space, it is part of the text, and it stays the same when spaces are put
behind it in the place of characters that belong to no lexeme.
-/
structure Lexer.Tolerant (lexer : Lexer) : Prop where
  space : ∀ rest, lexer (' ' :: rest) = 0
  fits : ∀ cs, lexer cs ≤ cs.length
  stable : ∀ {lexeme}, lexeme ≠ [] → ∀ rest, lexer (lexeme ++ rest) = lexeme.length →
    lexer (lexeme ++ blanked lexer rest) = lexeme.length

theorem lexemes_append {lexer : Lexer} {lexeme : List Char} (hne : lexeme ≠ []) {rest : List Char}
    (h : lexer (lexeme ++ rest) = lexeme.length)
    : lexemes lexer (lexeme ++ rest) = lexeme :: lexemes lexer rest := by
  cases lexeme with
  | nil => exact (hne rfl).elim
  | cons c lexeme =>
    rw [List.cons_append] at h ⊢
    rw [lexemes, h]
    simp

theorem blanked_append {lexer : Lexer} {lexeme : List Char} (hne : lexeme ≠ []) {rest : List Char}
    (h : lexer (lexeme ++ rest) = lexeme.length)
    : blanked lexer (lexeme ++ rest) = lexeme ++ blanked lexer rest := by
  cases lexeme with
  | nil => exact (hne rfl).elim
  | cons c lexeme =>
    rw [List.cons_append] at h ⊢
    rw [blanked, h]
    simp

theorem strays_append {lexer : Lexer} {lexeme : List Char} (hne : lexeme ≠ []) {rest : List Char}
    (h : lexer (lexeme ++ rest) = lexeme.length)
    : strays lexer (lexeme ++ rest) = strays lexer rest := by
  cases lexeme with
  | nil => exact (hne rfl).elim
  | cons c lexeme =>
    rw [List.cons_append] at h ⊢
    rw [strays, h]
    simp

-- a text is empty, or it begins with a stray character or with a lexeme
theorem Lexer.Tolerant.induct {lexer : Lexer} (h : lexer.Tolerant) {motive : List Char → Prop}
    (nil : motive []) (stray : ∀ c rest, lexer (c :: rest) = 0 → motive rest → motive (c :: rest))
    (lexeme : ∀ lexeme rest, lexeme ≠ [] → lexer (lexeme ++ rest) = lexeme.length → motive rest →
      motive (lexeme ++ rest))
    (cs : List Char)
    : motive cs := by
  fun_induction lexemes lexer cs with
  | case1 => exact nil
  | case2 c rest hlexer ih => exact stray c rest hlexer ih
  | case3 c rest length hlexer ih =>
    have hfits := h.fits (c :: rest)
    rw [hlexer, List.length_cons] at hfits
    have hsplit : c :: rest = (c :: rest.take length) ++ rest.drop length := by simp
    rw [hsplit]
    apply lexeme _ _ (by simp) _ ih
    rw [← hsplit, hlexer, List.length_cons, List.length_take]
    omega

/--
A lexeme is found where the text goes on with it.
-/
theorem exists_rest_of_mem_lexemes {lexer : Lexer} (h : lexer.Tolerant) {lexeme cs : List Char}
    (hlexeme : lexeme ∈ lexemes lexer cs)
    : lexeme ≠ [] ∧ ∃ rest, lexer (lexeme ++ rest) = lexeme.length := by
  induction cs using h.induct with
  | nil =>
    rw [lexemes] at hlexeme
    cases hlexeme
  | stray c rest hlexer ih =>
    rw [lexemes, hlexer] at hlexeme
    exact ih hlexeme
  | lexeme first rest hne hlexer ih =>
    rw [lexemes_append hne hlexer] at hlexeme
    rcases List.mem_cons.mp hlexeme with rfl | hlexeme
    . exact ⟨hne, rest, hlexer⟩
    . exact ih hlexeme

theorem lexemes_blanked {lexer : Lexer} (h : lexer.Tolerant) (cs : List Char)
    : lexemes lexer (blanked lexer cs) = lexemes lexer cs := by
  induction cs using h.induct with
  | nil => rw [blanked]
  | stray c rest hlexer ih =>
    rw [blanked, hlexer, lexemes, lexemes, h.space, hlexer]
    exact ih
  | lexeme lexeme rest hne hlexer ih =>
    rw [blanked_append hne hlexer, lexemes_append hne (h.stable hne rest hlexer),
      lexemes_append hne hlexer, ih]

/--
Nothing but spaces is left outside of the lexemes.
-/
theorem eq_space_of_mem_strays {lexer : Lexer} (h : lexer.Tolerant) {cs : List Char} {c : Char}
    (hc : c ∈ strays lexer (blanked lexer cs))
    : c = ' ' := by
  induction cs using h.induct with
  | nil =>
    rw [blanked, strays] at hc
    cases hc
  | stray c' rest hlexer ih =>
    rw [blanked, hlexer, strays, h.space] at hc
    rcases List.mem_cons.mp hc with hc | hc
    . exact hc
    . exact ih hc
  | lexeme lexeme rest hne hlexer ih =>
    rw [blanked_append hne hlexer, strays_append hne (h.stable hne rest hlexer)] at hc
    exact ih hc

/--
The lexemes of a text as texts.
-/
def lexemeTexts (lexer : Lexer) (text : String) : List String :=
  (lexemes lexer text.toList).map String.ofList

/--
The text with spaces in the place of the characters outside of its lexemes.
-/
def spaced (lexer : Lexer) (text : String) : String := String.ofList (blanked lexer text.toList)

theorem lexemeTexts_spaced {lexer : Lexer} (h : lexer.Tolerant) (text : String)
    : lexemeTexts lexer (spaced lexer text) = lexemeTexts lexer text := by
  unfold lexemeTexts spaced
  rw [String.toList_ofList, lexemes_blanked h]

theorem head?_blanked (lexer : Lexer) (cs : List Char)
    : (blanked lexer cs).head? = cs.head?.map fun c => if lexer cs = 0 then ' ' else c := by
  cases cs with
  | nil =>
    rw [blanked]
    rfl
  | cons c rest =>
    rw [blanked]
    cases hlexer : lexer (c :: rest) with
    | zero => simp
    | succ length => simp

theorem head?_blanked_ne {lexer : Lexer} {c : Char} (h : ∀ rest, lexer (c :: rest) = 0) (hc : c ≠ ' ')
    (cs : List Char)
    : (blanked lexer cs).head? ≠ some c := by
  rw [head?_blanked]
  cases cs with
  | nil => simp
  | cons d rest =>
    rw [List.head?_cons, Option.map_some]
    intro heq
    split at heq
    . exact hc (Option.some.inj heq).symm
    . next hlexer =>
      cases heq
      exact hlexer (h rest)

theorem firstLexeme_of_zero {lexer : Lexer} {cs : List Char} (h : lexer cs = 0) (lexers : List Lexer)
    : firstLexeme (lexer :: lexers) cs = firstLexeme lexers cs := by
  unfold firstLexeme
  rw [List.find?_cons_of_neg (by simpa using h)]

theorem firstLexeme_of_others {lexers : List Lexer} {cs : List Char} (h : firstLexeme lexers cs = 0)
    (lexer : Lexer)
    : firstLexeme (lexer :: lexers) cs = lexer cs := by
  by_cases hlexer : lexer cs = 0
  . rw [firstLexeme_of_zero hlexer, h, hlexer]
  . unfold firstLexeme
    rw [List.find?_cons_of_pos (by simpa using hlexer)]
    rfl

theorem length_takeWhile_eq_zero {p : Char → Bool} {cs : List Char}
    : (cs.takeWhile p).length = 0 ↔ ∀ c, cs.head? = some c → p c = false := by
  cases cs with
  | nil => simp
  | cons c rest => cases hc : p c with
    | _ => simp [hc]

theorem length_takeWhile_append {p : Char → Bool} {front rest more : List Char}
    (h : ((front ++ rest).takeWhile p).length = front.length)
    (hmore : (rest.takeWhile p).length = 0 → (more.takeWhile p).length = 0)
    : ((front ++ more).takeWhile p).length = front.length := by
  induction front with
  | nil => exact hmore h
  | cons c front ih =>
    rw [List.cons_append, List.takeWhile_cons] at h ⊢
    split at h
    . next hc =>
      rw [if_pos hc, List.length_cons, ih (Nat.succ.inj h), List.length_cons]
    . cases h

theorem takeWhile_append_of_ends {p : Char → Bool} {front rest : List Char} (h : ∀ c ∈ front, p c = true)
    (hrest : ∀ c, rest.head? = some c → p c = false)
    : (front ++ rest).takeWhile p = front := by
  rw [List.takeWhile_append_of_pos h]
  cases rest with
  | nil => rw [List.takeWhile_nil, List.append_nil]
  | cons c rest => rw [List.takeWhile_cons_of_neg (by simp [hrest c rfl]), List.append_nil]

theorem dropWhile_append_of_ends {p : Char → Bool} {front rest : List Char} (h : ∀ c ∈ front, p c = true)
    (hrest : ∀ c, rest.head? = some c → p c = false)
    : (front ++ rest).dropWhile p = rest := by
  rw [List.dropWhile_append_of_pos h]
  cases rest with
  | nil => rfl
  | cons c rest => rw [List.dropWhile_cons_of_neg (by simp [hrest c rfl])]

theorem length_takeWhile_blanked {lexer : Lexer} {p : Char → Bool} (hspace : p ' ' = false)
    {cs : List Char} (h : (cs.takeWhile p).length = 0)
    : ((blanked lexer cs).takeWhile p).length = 0 := by
  rw [length_takeWhile_eq_zero] at h ⊢
  intro c hc
  rw [head?_blanked, Option.map_eq_some_iff] at hc
  rcases hc with ⟨d, hd, rfl⟩
  split
  . exact hspace
  . exact h d hd

end Text
end TokenGrammar
