import TokenGrammar.Numeral
import TokenGrammar.Pattern.Matching

/-!
This module contains runs of decimal digits: the patterns that accept one character of a set, alone
or in front of others, or as many of them as there are, and the integers that digits write.
-/

namespace TokenGrammar

namespace Pattern

/--
The end of a token is all that is asked for behind a pattern that has to match the whole token.
-/
def atEnd : Continuation := fun place => if place.rest.isEmpty then some place else none

theorem isSome_atEnd (place : Place) : (atEnd place).isSome = place.rest.isEmpty := by
  unfold atEnd
  split
  . next h => rw [h]; rfl
  . next h => simpa using h

theorem matchesWhole_eq (regex : Regex) (text : String)
    : regex.matchesWhole text = (regex.search atEnd (Place.start text.toList)).isSome := rfl

theorem search_one_nil (set : CharSet) (next : Continuation) {place : Place} (h : place.rest = [])
    : (Regex.one set).search next place = none := by
  rcases place with ⟨before, rest, left, remembered, hleft⟩
  cases h
  rfl

theorem search_one_cons (set : CharSet) (next : Continuation) {place : Place} {c : Char}
    {rest : List Char} (h : place.rest = c :: rest)
    : ∃ after, (Regex.one set).search next place = (if set.contains c then next after else none)
        ∧ after.rest = rest ∧ after.left < place.left := by
  rcases place with ⟨before, _, left, remembered, hleft⟩
  cases h
  refine ⟨⟨c :: before, rest, left - 1, remembered, by simp [hleft]⟩, ?_, rfl, ?_⟩
  . unfold Regex.search Place.advance?
    dsimp only
    split
    . rfl
    . rfl
  . rw [List.length_cons] at hleft
    show left - 1 < left
    omega

theorem matchesWhole_one (set : CharSet) (text : String)
    : (Regex.one set).matchesWhole text = true ↔ ∃ c, text.toList = [c] ∧ set.contains c = true := by
  rw [matchesWhole_eq]
  cases hcs : text.toList with
  | nil =>
    rw [search_one_nil set atEnd rfl]
    simp
  | cons c rest =>
    have hrest : (Place.start (c :: rest)).rest = c :: rest := rfl
    rcases search_one_cons set atEnd hrest with ⟨after, hsearch, hafter, _⟩
    rw [hsearch]
    split
    . next hcontains =>
      rw [isSome_atEnd, hafter, List.isEmpty_iff]
      constructor
      . rintro rfl
        exact ⟨c, rfl, hcontains⟩
      . rintro ⟨_, h, _⟩
        exact (List.cons.inj h).2
    . next hcontains =>
      simp only [Option.isSome_none, Bool.false_eq_true, List.cons.injEq, false_iff]
      rintro ⟨_, ⟨rfl, _⟩, h⟩
      exact hcontains h

theorem matchesWhole_cat_one {set : CharSet} {regex : Regex} {text : String}
    (h : (Regex.cat (.one set) regex).matchesWhole text = true)
    : ∃ c rest, text.toList = c :: rest ∧ set.contains c = true := by
  rw [matchesWhole_eq] at h
  change ((Regex.one set).search (regex.search atEnd) (Place.start text.toList)).isSome = true at h
  cases hcs : text.toList with
  | nil =>
    rw [hcs, search_one_nil set _ rfl] at h
    cases h
  | cons c rest =>
    have hrest : (Place.start (c :: rest)).rest = c :: rest := rfl
    rcases search_one_cons set (regex.search atEnd) hrest with ⟨after, hsearch, _⟩
    rw [hcs, hsearch] at h
    split at h
    . next hcontains => exact ⟨c, rest, rfl, hcontains⟩
    . cases h

theorem isSome_greedy_one (set : CharSet) (place : Place)
    : (Search.greedy (Regex.one set).search atEnd none place).isSome = true
        ↔
      ∀ c ∈ place.rest, set.contains c = true := by
  generalize hcs : place.rest = cs
  induction cs generalizing place with
  | nil =>
    rw [Search.greedy, if_neg (by simp), search_one_nil set _ hcs]
    simp [isSome_atEnd, hcs]
  | cons c rest ih =>
    rw [Search.greedy, if_neg (by simp)]
    rcases search_one_cons set _ hcs with ⟨after, hsearch, hafter, hleft⟩
    -- rounds never give a character back, as the end is not reached in front of it
    have hend : atEnd place = none := by simp [atEnd, hcs]
    rw [hsearch, hend, Option.orElse_eq_orElse, Option.orElse_eq_or, Option.or_none, if_pos hleft]
    split
    . next hcontains => simp [ih after hafter, hcontains]
    . next hcontains => simp [hcontains]

theorem matchesWhole_rounds_one (set : CharSet) (text : String)
    : (Regex.rounds .greedy 1 none (.one set)).matchesWhole text = true
        ↔
      text.toList ≠ [] ∧ ∀ c ∈ text.toList, set.contains c = true := by
  rw [matchesWhole_eq]
  show ((Regex.one set).search (Search.greedy (Regex.one set).search atEnd none)
    (Place.start text.toList)).isSome = true ↔ _
  cases hcs : text.toList with
  | nil =>
    rw [search_one_nil set _ rfl]
    simp
  | cons c rest =>
    have hrest : (Place.start (c :: rest)).rest = c :: rest := rfl
    rcases search_one_cons set (Search.greedy (Regex.one set).search atEnd none) hrest
      with ⟨after, hsearch, hafter, _⟩
    rw [hsearch]
    split
    . next hcontains =>
      rw [isSome_greedy_one, hafter]
      simp [hcontains]
    . next hcontains => simp [hcontains]

end Pattern

namespace Text

theorem trimmed_of_forall {isMargin : Char → Bool} {cs : List Char} (h : ∀ c ∈ cs, isMargin c = false)
    : trimmed isMargin cs = cs := by
  have hdrop {cs : List Char} (h : ∀ c ∈ cs, isMargin c = false) : cs.dropWhile isMargin = cs := by
    cases cs with
    | nil => rfl
    | cons c rest => simp [h c List.mem_cons_self]
  unfold trimmed
  rw [hdrop h, hdrop (by simpa using h), List.reverse_reverse]

theorem isBlank_eq_false_of_isDigit {c : Char} (h : isDigit c = true) : isBlank c = false := by
  have hdigits : ∀ start ∈ digitZeros, ∀ place < 10, isBlank (Char.ofNat (start + place)) = false := by
    decide +kernel
  unfold isDigit digitValue? at h
  rw [Option.isSome_map, List.find?_isSome] at h
  rcases h with ⟨start, hstart, h⟩
  rw [Bool.and_eq_true, decide_eq_true_eq, decide_eq_true_eq] at h
  have := hdigits start hstart (c.toNat - start) (by omega)
  rwa [show start + (c.toNat - start) = c.toNat by omega, Char.ofNat_toNat] at this

end Text

namespace Numeral

/--
The number that a text of decimal digits writes.
-/
def decimal (text : String) : Nat :=
  Text.ofDigits 10 (text.toList.filterMap Text.digitValue?)

theorem leadingDigits_of_isDigit {cs : List Char} (h : ∀ c ∈ cs, Text.isDigit c = true)
    : leadingDigits cs = (cs.filterMap Text.digitValue?, []) := by
  induction cs with
  | nil => rfl
  | cons c rest ih =>
    have hrest : ∀ d ∈ rest, Text.isDigit d = true := fun d hd => h d (List.mem_cons_of_mem c hd)
    rcases Option.isSome_iff_exists.mp (h c List.mem_cons_self) with ⟨value, hvalue⟩
    rw [List.filterMap_cons_some hvalue]
    unfold leadingDigits
    rw [hvalue]
    cases rest with
    | nil => rfl
    | cons d rest =>
      have hlow : (d == '_') = false := by
        rw [beq_eq_false_iff_ne]
        rintro rfl
        exact absurd (hrest '_' List.mem_cons_self) (by decide)
      dsimp only
      rw [hlow, Bool.false_and, if_neg (by simp), ih hrest]

theorem readInteger_of_isDigit {text : String} (hne : text.toList ≠ [])
    (h : ∀ c ∈ text.toList, Text.isDigit c = true) (hlength : text.length ≤ digitLimit)
    : readInteger text = .ok (decimal text) := by
  have hmargin {c : Char} (hc : Text.isDigit c = true) : isMargin c = false := by
    unfold isMargin
    rw [Text.isBlank_eq_false_of_isDigit hc]
    rfl
  have htrimmed := Text.trimmed_of_forall fun c hc => hmargin (h c hc)
  have hcount : (text.toList.filterMap Text.digitValue?).length ≤ digitLimit := by
    have := List.length_filterMap_le Text.digitValue? text.toList
    rw [String.length_toList] at this
    omega
  unfold readInteger decimal
  rw [htrimmed]
  generalize text.toList = cs at *
  have hsome : (cs.filterMap Text.digitValue?).isEmpty = false := by
    cases cs with
    | nil => exact (hne rfl).elim
    | cons c rest =>
      rcases Option.isSome_iff_exists.mp (h c List.mem_cons_self) with ⟨value, hvalue⟩
      rw [List.filterMap_cons_some hvalue]
      rfl
  dsimp only
  split
  . exact absurd (h '-' List.mem_cons_self) (by decide)
  . exact absurd (h '+' List.mem_cons_self) (by decide)
  . rw [leadingDigits_of_isDigit h]
    dsimp only
    rw [hsome, if_neg (by simp), if_neg (by omega), if_neg (by simp)]
    rfl

end Numeral
end TokenGrammar
