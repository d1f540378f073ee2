import TokenGrammar.TokenStream

/-!
This module contains what the operations of a stream mean for the list of the tokens that are left,
as long as the cursor does not stand before the first token. No operation fails then, and none moves
the cursor back.
-/

namespace TokenGrammar
namespace TokenStream

variable {stream : TokenStream}

theorem ofItems_texts (texts : List String)
    : ofItems (texts.map .text) = .ok ⟨texts.toArray, 0⟩ := by
  have hgo (index : Nat) : ofItems.go index (texts.map .text) = .ok texts := by
    induction texts generalizing index with
    | nil => rfl
    | cons text texts ih =>
      rw [List.map_cons, ofItems.go, ih]
      rfl
  unfold ofItems
  rw [hgo]
  rfl

theorem token_of_nonneg {index : Int} (h : 0 ≤ index)
    : stream.token index = .ok stream.tokens[index.toNat]? := by
  unfold token
  split
  . next hsize =>
    unfold size at hsize
    rw [Array.getElem?_eq_none]
    omega
  . rfl

theorem rest_of_nonneg (h : 0 ≤ stream.position)
    : stream.rest = stream.tokens.toList.drop stream.position.toNat := by
  unfold rest
  rw [if_neg (by omega)]

theorem mem_of_mem_rest {token : String} (h : token ∈ stream.rest) : token ∈ stream.tokens := by
  unfold rest at h
  rw [← Array.mem_toList_iff]
  exact List.mem_of_mem_drop h

theorem token_ahead (h : 0 ≤ stream.position) (offset : Nat)
    : stream.token (stream.position + offset) = .ok stream.rest[offset]? := by
  rw [token_of_nonneg (by omega), rest_of_nonneg h, List.getElem?_drop, Array.getElem?_toList]
  congr
  omega

theorem token_position (h : 0 ≤ stream.position)
    : stream.token stream.position = .ok stream.rest.head? := by
  have := token_ahead h 0
  rw [List.head?_eq_getElem?]
  simpa using this

@[simp]
theorem move_tokens (count : Int) : (stream.move count).tokens = stream.tokens := rfl

@[simp]
theorem move_position (count : Int) : (stream.move count).position = stream.position + count := rfl

theorem rest_move (h : 0 ≤ stream.position) (count : Nat)
    : (stream.move count).rest = stream.rest.drop count := by
  rw [rest_of_nonneg h, rest_of_nonneg (by rw [move_position]; omega), List.drop_drop]
  rw [move_tokens, move_position]
  congr
  omega

theorem rest_move_one (h : 0 ≤ stream.position) : (stream.move 1).rest = stream.rest.tail := by
  have := rest_move h 1
  rw [List.drop_one] at this
  exact this

theorem rest_move_max (h : 0 ≤ stream.position) (count : Nat)
    : (stream.move (max count 1)).rest = stream.rest.drop (max count 1) := by
  have hmax : max (count : Int) 1 = (max count 1 : Nat) := by omega
  rw [hmax, rest_move h]

theorem rest_suffix_drop {there : TokenStream} {count : Nat} (h : 0 ≤ stream.position)
    (htokens : there.tokens = stream.tokens) (hposition : stream.position + count ≤ there.position)
    : there.rest <:+ stream.rest.drop count := by
  rw [rest_of_nonneg h, rest_of_nonneg (by omega), htokens, List.drop_drop]
  have hplace : there.position.toNat
      = stream.position.toNat + count + (there.position - stream.position - count).toNat := by
    omega
  rw [hplace, ← List.drop_drop]
  apply List.drop_suffix

/--
The token that `peek` shows in front of these tokens: an empty one is stepped over, but only one.
-/
def inSight : List String → Option String
  | "" :: rest => rest.head?
  | rest => rest.head?

@[simp]
theorem inSight_nil : inSight [] = none := rfl

@[simp]
theorem inSight_empty_cons (rest : List String) : inSight ("" :: rest) = rest.head? := rfl

theorem inSight_cons {token : String} (h : token ≠ "") (rest : List String)
    : inSight (token :: rest) = some token := by
  unfold inSight
  split
  . next heq =>
    rw [List.cons.injEq] at heq
    exact (h heq.1).elim
  . rfl

theorem ahead_eq (h : 0 ≤ stream.position) (offset : Nat)
    : stream.ahead offset = .ok stream.rest[offset]? := by
  unfold ahead
  rw [if_neg (by omega), token_ahead h]

theorem peek_zero (h : 0 ≤ stream.position) : stream.peek 0 = .ok (inSight stream.rest) := by
  have hskipped : stream.emptyAhead 1 = .ok (if stream.rest[0]? == some "" then 1 else 0) := by
    unfold emptyAhead emptyAhead
    rw [ahead_eq h]
    rfl
  have hpeek : stream.peek 0
      = stream.ahead (if stream.rest[0]? == some "" then 1 else 0 : Nat) := by
    unfold peek
    rw [Int.zero_add, Int.toNat_one, hskipped]
    simp only [bind, Except.bind]
    rw [Int.zero_add]
  rw [hpeek, ahead_eq h]
  cases stream.rest with
  | nil => rfl
  | cons token rest =>
    by_cases htoken : token = ""
    . subst htoken
      simp [List.head?_eq_getElem?]
    . rw [inSight_cons htoken]
      simp [htoken]

theorem tokens_of_next {after : TokenStream} {taken : Option String}
    (h : stream.next = .ok (taken, after))
    : after.tokens = stream.tokens := by
  fun_induction next stream with
  | case1 stream fault heq => cases h
  | case2 stream heq ih => exact ih h
  | case3 stream token hne heq =>
    cases h
    rfl

theorem next_eq (h : 0 ≤ stream.position)
    : ∃ after, stream.next = .ok ((stream.rest.dropWhile (· == "")).head?, after)
      ∧ after.tokens = stream.tokens ∧ stream.position < after.position
      ∧ after.rest = (stream.rest.dropWhile (· == "")).tail := by
  fun_induction next stream with
  | case1 stream fault heq =>
    rw [token_position h] at heq
    cases heq
  | case2 stream heq ih =>
    rw [token_position h] at heq
    injection heq with hhead
    rcases List.head?_eq_some_iff.mp hhead with ⟨rest, hrest⟩
    rcases ih (by rw [move_position]; omega) with ⟨after, hnext, htokens, hposition, hafter⟩
    rw [rest_move_one h, hrest, List.tail_cons] at hnext hafter
    rw [hrest]
    refine ⟨after, by simpa using hnext, htokens, ?_, by simpa using hafter⟩
    rw [move_position] at hposition
    omega
  | case3 stream token hne heq =>
    rw [token_position h] at heq
    injection heq with hhead
    have hdrop : stream.rest.dropWhile (· == "") = stream.rest := by
      cases hrest : stream.rest with
      | nil => rfl
      | cons first rest =>
        have : first ≠ "" := by
          intro hfirst
          apply hne
          rw [← hhead, hrest, hfirst]
          rfl
        simp [this]
    refine ⟨stream.move 1, ?_, rfl, ?_, ?_⟩
    . rw [hdrop, hhead]
    . rw [move_position]
      omega
    . rw [hdrop, rest_move_one h]

theorem rest_of_peek_next {token taken : Option String} {after : TokenStream}
    (h : 0 ≤ stream.position) (hpeek : stream.peek 0 = .ok token)
    (hnext : stream.next = .ok (taken, after))
    : inSight stream.rest = token ∧ after.rest = (stream.rest.dropWhile (· == "")).tail := by
  rw [peek_zero h] at hpeek
  injection hpeek with hsight
  rcases next_eq h with ⟨after', hnext', _, _, hafter⟩
  rw [hnext] at hnext'
  cases hnext'
  exact ⟨hsight, hafter⟩

theorem peek_zero_of_not_mem (h : 0 ≤ stream.position) (hempty : "" ∉ stream.tokens)
    : stream.peek 0 = .ok stream.rest.head? := by
  have hrest : "" ∉ stream.rest := fun hmem => hempty (mem_of_mem_rest hmem)
  rw [peek_zero h]
  cases hcases : stream.rest with
  | nil => rfl
  | cons token rest =>
    rw [inSight_cons]
    . rfl
    . intro htoken
      apply hrest
      rw [hcases, htoken]
      exact List.mem_cons_self

theorem next_of_not_mem (h : 0 ≤ stream.position) (hempty : "" ∉ stream.tokens)
    : ∃ after, stream.next = .ok (stream.rest.head?, after) ∧ after.rest = stream.rest.tail := by
  have hrest : "" ∉ stream.rest := fun hmem => hempty (mem_of_mem_rest hmem)
  have hdrop : stream.rest.dropWhile (· == "") = stream.rest := by
    cases hcases : stream.rest with
    | nil => rfl
    | cons token rest =>
      rw [List.dropWhile_cons_of_neg]
      intro htoken
      apply hrest
      rw [hcases, beq_iff_eq.mp htoken]
      exact List.mem_cons_self
  rcases next_eq h with ⟨after, hnext, _, _, hafter⟩
  rw [hdrop] at hnext hafter
  exact ⟨after, hnext, hafter⟩

end TokenStream
end TokenGrammar
