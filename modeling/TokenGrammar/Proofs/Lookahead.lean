import TokenGrammar.Proofs.Enumeration

/-!
This module contains when a look ahead shows the token that is going to be read. The look counts the empty
tokens up to the place that it is about and goes on by as many places, whereas reading steps over every
empty token. The two agree if none of the places that the look goes on by has an empty token.
-/

namespace TokenGrammar

/--
The tokens that are not empty, counted up to a number, are the tokens counted up to this number and on by
as many places as there were empty ones, if none of those places has an empty one.
-/
theorem getElem?_filled {tokens : List String} {offset : Nat}
    (h : ∀ place, offset < place → place ≤ offset + (tokens.take (offset + 1)).count "" →
      tokens[place]? ≠ some "")
    : (filled tokens)[offset]? = tokens[offset + (tokens.take (offset + 1)).count ""]? := by
  induction tokens generalizing offset with
  | nil => rfl
  | cons token tokens ih =>
    by_cases htoken : token = ""
    . subst htoken
      rw [List.take_succ_cons, List.count_cons_self] at h ⊢
      -- the place of the look is one further in the tokens behind, and it is one to go on by
      have hshown : tokens[offset]? ≠ some "" := h (offset + 1) (by omega) (by omega)
      have hcount : (tokens.take (offset + 1)).count "" = (tokens.take offset).count "" := by
        rw [List.take_add_one, List.count_append]
        cases hlast : tokens[offset]? with
        | none => rfl
        | some last =>
          have hne : last ≠ "" := by
            rintro rfl
            exact hshown hlast
          rw [Option.toList_some, List.count_singleton, if_neg (by simpa using hne)]
          rfl
      rw [filled_empty_cons, ih, hcount]
      . rfl
      . intro place hplace hle
        exact h (place + 1) (by omega) (by omega)
    . cases offset with
      | zero =>
        rw [filled_cons htoken, List.take_succ_cons, List.count_cons_of_ne htoken]
        rfl
      | succ offset =>
        rw [List.take_succ_cons, List.count_cons_of_ne htoken] at h ⊢
        have hplace : offset + 1 + (tokens.take (offset + 1)).count ""
            = offset + (tokens.take (offset + 1)).count "" + 1 := by
          omega
        rw [filled_cons htoken, hplace, List.getElem?_cons_succ, List.getElem?_cons_succ]
        apply ih
        intro place hlt hle
        exact h (place + 1) (by omega) (by omega)

namespace TokenStream

variable {stream : TokenStream}

theorem emptyAhead_eq (h : 0 ≤ stream.position) (count : Nat)
    : stream.emptyAhead count = .ok ((stream.rest.take count).count "") := by
  induction count with
  | zero => rfl
  | succ count ih =>
    rw [emptyAhead, ih, ahead_eq h, List.take_add_one, List.count_append]
    cases stream.rest[count]? with
    | none => rfl
    | some token =>
      by_cases htoken : token = ""
      . subst htoken
        rfl
      . have hshown : ¬ (some token == some "") = true := by simpa using htoken
        rw [Option.toList_some, List.count_singleton, if_neg (by simpa using htoken)]
        exact congrArg Except.ok (if_neg hshown)

theorem peek_eq (h : 0 ≤ stream.position) (offset : Nat)
    : stream.peek offset
        =
      .ok stream.rest[offset + (stream.rest.take (offset + 1)).count ""]? := by
  have hcount : ((offset : Int) + 1).toNat = offset + 1 := by omega
  rw [peek, hcount, emptyAhead_eq h]
  exact ahead_eq h (offset + (stream.rest.take (offset + 1)).count "")

theorem inSight_ne_iff (tokens : List String)
    : inSight tokens ≠ (filled tokens).head? ↔ tokens[0]? = some "" ∧ tokens[1]? = some "" := by
  cases tokens with
  | nil => simp
  | cons first tokens =>
    by_cases hfirst : first = ""
    . subst hfirst
      rw [inSight_empty_cons, filled_empty_cons]
      cases tokens with
      | nil => simp
      | cons second tokens =>
        by_cases hsecond : second = ""
        . subst hsecond
          simp only [List.head?_cons, List.getElem?_cons_zero, List.getElem?_cons_succ, and_self, iff_true]
          intro hsame
          exact ne_empty_of_mem_filled (List.mem_of_mem_head? hsame.symm) rfl
        . simp [filled_cons hsecond, hsecond]
    . simp [inSight_cons hfirst, filled_cons hfirst, hfirst]

theorem nthNext_of_nonneg (h : 0 ≤ stream.position) (count : Nat)
    : (stream.nthNext count).1 = .ok (.token (filled stream.rest)[count]?) := by
  have hwithin : -stream.size ≤ stream.position := by omega
  rcases nthNext_eq hwithin count with ⟨after, hasked, _⟩
  rw [hasked, course_of_nonneg h]

/--
A look ahead shows the token that so many requests for the next one come to, or that there is none, if the
places that it goes on by for the empty tokens up to it have none of these. A look at the very next token
fails to show it just where two empty tokens stand at the cursor.
-/
theorem peek_eq_nthNext (hpos : 0 ≤ stream.position)
    : (∀ offset : Nat,
        let skipped := (stream.rest.take (offset + 1)).count ""
        (∀ place, offset < place → place ≤ offset + skipped → stream.rest[place]? ≠ some "") →
        (stream.fulfil (.peek offset)).1 = (stream.nthNext offset).1
          ∧ (stream.nthNext offset).1 = .ok (.token (filled stream.rest)[offset]?))
      ∧ ((stream.fulfil (.peek 0)).1 ≠ (stream.nthNext 0).1
        ↔
      stream.rest[0]? = some "" ∧ stream.rest[1]? = some "") := by
  constructor
  . intro offset skipped hplaces
    refine ⟨?_, nthNext_of_nonneg hpos offset⟩
    rw [nthNext_of_nonneg hpos, getElem?_filled hplaces, fulfil, peek_eq hpos]
    rfl
  . rw [← inSight_ne_iff, nthNext_of_nonneg hpos, fulfil, peek_zero hpos, List.head?_eq_getElem?]
    show (Except.ok (StreamAnswer.token _) : Except Fault StreamAnswer) ≠ _ ↔ _
    rw [ne_eq, ne_eq, Except.ok.injEq, StreamAnswer.token.injEq]

theorem peek_eq_nthNext_gap
    : (fulfil ⟨#["a", "", "b", "c", "", "", "d"], 0⟩ (.peek 1)).1
        = (nthNext ⟨#["a", "", "b", "c", "", "", "d"], 0⟩ 1).1
      ∧ (nthNext ⟨#["a", "", "b", "c", "", "", "d"], 0⟩ 1).1 = .ok (.token (some "b"))
      ∧ (fulfil ⟨#["a", "", "b", "c", "", "", "d"], 4⟩ (.peek 0)).1
        ≠ (nthNext ⟨#["a", "", "b", "c", "", "", "d"], 4⟩ 0).1 := by
  have hstart : 0 ≤ position ⟨#["a", "", "b", "c", "", "", "d"], 0⟩ := by decide
  have hgap : 0 ≤ position ⟨#["a", "", "b", "c", "", "", "d"], 4⟩ := by decide
  have hplaces (place : Nat) (hlt : 1 < place) (hle : place ≤ 2)
      : (rest ⟨#["a", "", "b", "c", "", "", "d"], 0⟩)[place]? ≠ some "" := by
    have hplace : place = 2 := by omega
    rw [hplace]
    decide
  have hagree := (peek_eq_nthNext hstart).1 1 hplaces
  exact ⟨hagree.1, hagree.2, (peek_eq_nthNext hgap).2.mpr ⟨rfl, rfl⟩⟩

end TokenStream
end TokenGrammar
