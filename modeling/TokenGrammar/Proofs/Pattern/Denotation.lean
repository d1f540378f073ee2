import Mathlib.Computability.Language
import TokenGrammar.Proofs.DigitRun

/-!
This module contains the languages of patterns. A pattern is run with what has to match behind it; it denotes
a language if both together accept the texts of that language in front of the texts that are accepted behind
it. So no choice that the search makes first can hide a match.
-/

namespace TokenGrammar
namespace Pattern

open scoped Computability

/--
What has to match from a place on is found at exactly those places where a text of the language is left.
-/
def Continuation.Accepts (next : Continuation) (L : Language Char) : Prop :=
  ∀ place, (next place).isSome = true ↔ place.rest ∈ L

/--
The search finds the texts of a language in front of whatever is accepted behind them.
-/
def Search.Finds (search : Search) (L : Language Char) : Prop :=
  ∀ ⦃next : Continuation⦄ ⦃M : Language Char⦄, next.Accepts M →
    Continuation.Accepts (search next) (L * M)

/--
The pattern matches the texts of a language. Conditions on the text before a place, if it has any, concern a
fixed number of characters.
-/
structure Regex.Denotes (regex : Regex) (L : Language Char) : Prop where
  finds : regex.search.Finds L
  fixed : regex.lookBehindsFixed = true

/--
The texts of one character that has the property.
-/
def oneOf (p : Char → Prop) : Language Char := {cs | ∃ c, cs = [c] ∧ p c}

theorem mem_oneOf_mul {p : Char → Prop} {M : Language Char} {cs : List Char}
    : cs ∈ oneOf p * M ↔ ∃ c rest, cs = c :: rest ∧ p c ∧ rest ∈ M := by
  rw [Language.mem_mul]
  constructor
  . rintro ⟨_, ⟨c, rfl, hc⟩, rest, hrest, rfl⟩
    exact ⟨c, rest, rfl, hc, hrest⟩
  . rintro ⟨c, rest, rfl, hc, hrest⟩
    exact ⟨[c], ⟨c, rfl, hc⟩, rest, hrest, rfl⟩

theorem singleton_mem_oneOf {p : Char → Prop} {c : Char} : [c] ∈ oneOf p ↔ p c := by
  constructor
  . rintro ⟨_, heq, hc⟩
    cases heq
    exact hc
  . intro hc
    exact ⟨c, rfl, hc⟩

theorem mem_kstar_oneOf {p : Char → Prop} {cs : List Char} : cs ∈ (oneOf p)∗ ↔ ∀ c ∈ cs, p c := by
  rw [Language.mem_kstar]
  constructor
  . rintro ⟨parts, rfl, hparts⟩ c hc
    rcases List.mem_flatten.mp hc with ⟨part, hpart, hmem⟩
    rcases hparts part hpart with ⟨d, rfl, hd⟩
    rw [List.mem_singleton.mp hmem]
    exact hd
  . intro h
    refine ⟨cs.map fun c => [c], by rw [← List.flatMap_def, List.flatMap_singleton'], ?_⟩
    intro part hpart
    rcases List.mem_map.mp hpart with ⟨c, hc, rfl⟩
    exact singleton_mem_oneOf.mpr (h c hc)

theorem accepts_atEnd : Continuation.Accepts atEnd 1 := by
  intro place
  rw [isSome_atEnd, List.isEmpty_iff, Language.mem_one]

namespace Search

theorem finds_empty : Finds (fun next place => next place) 1 := by
  intro next M h place
  rw [one_mul]
  exact h place

theorem Finds.cat {first second : Search} {L M : Language Char} (hfirst : first.Finds L)
    (hsecond : second.Finds M)
    : Finds (fun next place => first (second next) place) (L * M) := by
  intro next N h place
  rw [mul_assoc]
  exact hfirst (hsecond h) place

theorem Finds.alt {first second : Search} {L M : Language Char} (hfirst : first.Finds L)
    (hsecond : second.Finds M)
    : Finds (fun next place => first next place <|> second next place) (L + M) := by
  intro next N h place
  rw [add_mul, Language.mem_add, ← hfirst h place, ← hsecond h place]
  dsimp only
  rw [Option.orElse_eq_orElse, Option.orElse_eq_or, Option.isSome_or, Bool.or_eq_true]

/--
What may be left behind the first round, where the given number of characters was left in front of it: further
rounds follow only if the first one has matched something.
-/
def behindRound (L M : Language Char) (left : Nat) : Language Char :=
  {rest | if rest.length < left then rest ∈ L∗ * M else rest ∈ M}

-- nothing is lost if a round that matches nothing is the last one, as there is no need for such rounds
theorem mem_kstar_mul {L M : Language Char} {cs : List Char}
    : cs ∈ L∗ * M ↔ cs ∈ L * behindRound L M cs.length ∨ cs ∈ M := by
  constructor
  . intro h
    rcases Language.mem_mul.mp h with ⟨rounds, hrounds, rest, hrest, rfl⟩
    rcases Language.mem_kstar_iff_exists_nonempty.mp hrounds with ⟨parts, rfl, hparts⟩
    cases parts with
    | nil => exact .inr hrest
    | cons part parts =>
      rcases hparts part List.mem_cons_self with ⟨hpart, hne⟩
      have hothers : parts.flatten ∈ L∗ :=
        Language.join_mem_kstar fun part hpart => (hparts part (List.mem_cons_of_mem _ hpart)).1
      apply Or.inl
      rw [List.flatten_cons, List.append_assoc]
      apply Language.append_mem_mul hpart
      apply (if_pos _).mpr (Language.append_mem_mul hothers hrest)
      have := List.length_pos_iff.mpr hne
      simp only [List.length_append]
      omega
  . intro h
    rw [← Language.one_add_self_mul_kstar_eq_kstar, add_mul, one_mul, mul_assoc, Language.mem_add]
    rcases h with h | h
    . apply Or.inr
      rcases Language.mem_mul.mp h with ⟨part, hpart, rest, hrest, rfl⟩
      apply Language.append_mem_mul hpart
      rcases ite_prop_iff_or.mp hrest with ⟨_, hrest⟩ | ⟨_, hrest⟩
      . exact hrest
      . exact Language.append_mem_mul (Language.nil_mem_kstar L) hrest
    . exact .inl h

theorem Finds.greedy {body : Search} {L : Language Char} (h : body.Finds L)
    : Finds (fun next => Search.greedy body next none) L∗ := by
  intro next M hnext place
  show (Search.greedy body next none place).isSome = true ↔ _
  induction hleft : place.left using Nat.strong_induction_on generalizing place with
  | h left ih =>
    have hrounds : Continuation.Accepts
        (fun place' => if place'.left < place.left then Search.greedy body next none place'
          else next place')
        (behindRound L M place.left) := by
      intro place'
      show _ ↔ if place'.rest.length < place.left then place'.rest ∈ L∗ * M else place'.rest ∈ M
      rw [← place'.left_eq]
      dsimp only
      split
      . next hless => exact ih place'.left (hleft ▸ hless) place' rfl
      . exact hnext place'
    rw [Search.greedy, if_neg (by simp), Option.orElse_eq_orElse, Option.orElse_eq_or, Option.isSome_or,
      Bool.or_eq_true, mem_kstar_mul, ← hnext place, ← place.left_eq]
    exact or_congr_left (h hrounds place)

theorem greedy_once (body : Search) (next : Continuation) (place : Place)
    : greedy body next (some 1) place = (body next place).or (next place) := by
  have hround : (fun place' : Place => if place'.left < place.left
      then greedy body next ((some 1).map (· - 1)) place' else next place') = next := by
    funext place'
    split
    . rw [greedy]
      exact if_pos rfl
    . rfl
  rw [greedy, if_neg (by simp), hround, Option.orElse_eq_orElse, Option.orElse_eq_or]

theorem Finds.perhaps {body : Search} {L : Language Char} (h : body.Finds L)
    : Finds (fun next => Search.greedy body next (some 1)) (L + 1) := by
  intro next M hnext place
  show (Search.greedy body next (some 1) place).isSome = true ↔ _
  rw [greedy_once, Option.isSome_or, Bool.or_eq_true, add_mul, one_mul, Language.mem_add, ← hnext place]
  exact or_congr_left (h hnext place)

end Search

namespace Regex

theorem denotes_empty : Denotes .empty 1 := ⟨Search.finds_empty, rfl⟩

theorem denotes_one {set : CharSet} {p : Char → Prop} (hset : ∀ c, set.contains c = true ↔ p c)
    : Denotes (.one set) (oneOf p) where
  finds := by
    intro next M h place
    rw [mem_oneOf_mul]
    cases hrest : place.rest with
    | nil =>
      rw [search_one_nil set next hrest]
      simp
    | cons c rest =>
      rcases search_one_cons set next hrest with ⟨after, hsearch, hafter, _⟩
      rw [hsearch]
      split
      . next hc =>
        rw [h after, hafter]
        simp [(hset c).mp hc]
      . next hc => simp [mt (hset c).mpr hc]
  fixed := rfl

variable {first second body : Regex} {L M : Language Char}

theorem Denotes.cat (hfirst : first.Denotes L) (hsecond : second.Denotes M)
    : Denotes (.cat first second) (L * M) where
  finds := hfirst.finds.cat hsecond.finds
  fixed := by rw [lookBehindsFixed, hfirst.fixed, hsecond.fixed]; rfl

theorem Denotes.alt (hfirst : first.Denotes L) (hsecond : second.Denotes M)
    : Denotes (.alt first second) (L + M) where
  finds := hfirst.finds.alt hsecond.finds
  fixed := by rw [lookBehindsFixed, hfirst.fixed, hsecond.fixed]; rfl

/--
That a text is remembered makes no difference to what is left behind it.
-/
theorem Denotes.group (h : body.Denotes L) (index : Nat) : Denotes (.group index body) L where
  finds := by
    intro next M hnext place
    have hremember : Continuation.Accepts (fun place' => next (place'.remember place index)) M :=
      fun place' => hnext _
    exact h.finds hremember place
  fixed := h.fixed

theorem Denotes.star (h : body.Denotes L) : Denotes (.rounds .greedy 0 none body) L∗ where
  finds := h.finds.greedy
  fixed := h.fixed

theorem Denotes.plus (h : body.Denotes L) : Denotes (.rounds .greedy 1 none body) (L * L∗) where
  finds := h.finds.cat h.finds.greedy
  fixed := h.fixed

theorem Denotes.perhaps (h : body.Denotes L) : Denotes (.rounds .greedy 0 (some 1) body) (L + 1) where
  finds := h.finds.perhaps
  fixed := h.fixed

theorem Denotes.matchesWhole (h : body.Denotes L) (text : String)
    : body.matchesWhole text = true ↔ text.toList ∈ L := by
  rw [matchesWhole_eq, h.finds accepts_atEnd, mul_one]
  rfl

end Regex
end Pattern
end TokenGrammar
