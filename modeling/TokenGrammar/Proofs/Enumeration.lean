import TokenGrammar.Proofs.Cursor
import TokenGrammar.TokenStream.Group

/-!
This module contains what a stream answers when it is asked for the next token again and again: the tokens
that are not empty, one after another, and then always that there is none. From before the first token the
cursor comes over the last tokens, as it counts from the end there, and then over all of them.
-/

namespace TokenGrammar

/--
The tokens that are not empty.
-/
def filled (tokens : List String) : List String := tokens.filter (· ≠ "")

@[simp]
theorem filled_nil : filled [] = [] := rfl

@[simp]
theorem filled_empty_cons (tokens : List String) : filled ("" :: tokens) = filled tokens := by
  simp [filled]

theorem filled_cons {token : String} (h : token ≠ "") (tokens : List String)
    : filled (token :: tokens) = token :: filled tokens := by
  simp [filled, h]

@[simp]
theorem filled_append (tokens more : List String)
    : filled (tokens ++ more) = filled tokens ++ filled more :=
  List.filter_append tokens more

theorem ne_empty_of_mem_filled {token : String} {tokens : List String} (h : token ∈ filled tokens)
    : token ≠ "" := by
  rw [filled, List.mem_filter] at h
  simpa using h.2

/--
The tokens with their places, the first of which is given.
-/
def placed (place : Int) : List String → List (String × Int)
  | [] => []
  | token :: tokens => (token, place) :: placed (place + 1) tokens

theorem placed_eq_zipIdx (place : Nat) (tokens : List String)
    : placed place tokens = (tokens.zipIdx place).map fun entry => (entry.1, (entry.2 : Int)) := by
  induction tokens generalizing place with
  | nil => rfl
  | cons token tokens ih =>
    rw [placed, List.zipIdx_cons, List.map_cons, ← ih]
    rfl

theorem filter_placed (place : Int) (tokens : List String)
    : ((placed place tokens).filter (·.1 ≠ "")).map Prod.fst = filled tokens := by
  induction tokens generalizing place with
  | nil => rfl
  | cons token tokens ih =>
    by_cases htoken : token = ""
    . subst htoken
      rw [filled_empty_cons, ← ih (place + 1)]
      rfl
    . rw [filled_cons htoken, ← ih (place + 1), placed, List.filter_cons_of_pos (by simpa using htoken)]
      rfl

namespace TokenStream

/--
The tokens that the cursor comes over from where it stands. All of them stand once more in front of the
first one, where the places below zero are.
-/
def course (stream : TokenStream) : List String :=
  (stream.tokens.toList ++ stream.tokens.toList).drop (stream.position + stream.size).toNat

/--
The tokens of the course that are not empty, with the places that the cursor has in front of them.
-/
def stops (stream : TokenStream) : List (String × Int) :=
  (placed stream.position stream.course).filter (·.1 ≠ "")

theorem map_stops (stream : TokenStream) : stream.stops.map Prod.fst = filled stream.course :=
  filter_placed stream.position stream.course

/--
The stream after the next token has been asked for so many times.
-/
def afterNext (stream : TokenStream) : Nat → TokenStream
  | 0 => stream
  | count + 1 => (stream.fulfil .next).2.afterNext count

/--
The answer to the request for the next token that comes after so many others, and the stream after it.
-/
def nthNext (stream : TokenStream) (count : Nat) : Except Fault StreamAnswer × TokenStream :=
  (stream.afterNext count).fulfil .next

variable {stream : TokenStream}

theorem length_toList_tokens : stream.tokens.toList.length = stream.size :=
  Array.length_toList

theorem course_of_nonneg (h : 0 ≤ stream.position) : stream.course = stream.rest := by
  have hplace : (stream.position + stream.size).toNat
      = stream.tokens.toList.length + stream.position.toNat := by
    rw [length_toList_tokens]
    omega
  rw [course, hplace, List.drop_length_add_append, rest_of_nonneg h]

theorem course_of_neg (h : stream.position < 0)
    : stream.course = stream.rest ++ stream.tokens.toList := by
  have hplace : (stream.position + stream.size).toNat ≤ stream.tokens.toList.length := by
    rw [length_toList_tokens]
    omega
  rw [course, List.drop_append_of_le_length hplace, rest, if_pos h]

theorem token_course (h : -stream.size ≤ stream.position)
    : stream.token stream.position = .ok stream.course.head? := by
  by_cases hpos : 0 ≤ stream.position
  . rw [token_position hpos, course_of_nonneg hpos]
  . have hplace : (stream.position + stream.size).toNat < stream.tokens.toList.length := by
      rw [length_toList_tokens]
      omega
    rw [token, if_neg (by omega), if_neg hpos, if_pos (by omega), course, List.head?_drop,
      List.getElem?_append_left hplace, Array.getElem?_toList]

theorem course_move (h : -stream.size ≤ stream.position)
    : (stream.move 1).course = stream.course.tail := by
  have hplace : (stream.position + 1 + stream.size).toNat
      = (stream.position + stream.size).toNat + 1 := by
    omega
  rw [course, course, List.tail_drop, ← hplace]
  rfl

theorem stops_nil (h : stream.course = []) : stream.stops = [] := by
  rw [stops, h]
  rfl

theorem stops_cons (hwithin : -stream.size ≤ stream.position) {token : String} {rest : List String}
    (h : stream.course = token :: rest)
    : stream.stops
        =
      if token = "" then (stream.move 1).stops
      else (token, stream.position) :: (stream.move 1).stops := by
  have hmove : (stream.move 1).stops = (placed (stream.position + 1) rest).filter (·.1 ≠ "") := by
    rw [stops, course_move hwithin, h]
    rfl
  rw [hmove, stops, h, placed]
  by_cases htoken : token = ""
  . rw [if_pos htoken, List.filter_cons_of_neg (by simpa using htoken)]
  . rw [if_neg htoken, List.filter_cons_of_pos (by simpa using htoken)]

/--
The next token is the one at the first stop. The cursor comes to stand behind it, with the other stops
still to come.
-/
theorem next_stops (h : -stream.size ≤ stream.position)
    : ∃ after, stream.next = .ok (stream.stops.head?.map Prod.fst, after)
        ∧ -after.size ≤ after.position ∧ after.stops = stream.stops.tail
        ∧ ∀ stop, stream.stops.head? = some stop → after.position = stop.2 + 1 := by
  fun_induction next stream with
  | case1 stream fault heq =>
    rw [token_course h] at heq
    cases heq
  | case2 stream heq ih =>
    rw [token_course h, Except.ok.injEq, List.head?_eq_some_iff] at heq
    rcases heq with ⟨rest, hcourse⟩
    rw [stops_cons h hcourse, if_pos rfl]
    have hsize : (stream.move 1).size = stream.size := rfl
    apply ih
    rw [move_position]
    omega
  | case3 stream token hne heq =>
    have hsize : (stream.move 1).size = stream.size := rfl
    have hwithin : -(stream.move 1).size ≤ (stream.move 1).position := by
      rw [move_position]
      omega
    rw [token_course h, Except.ok.injEq] at heq
    refine ⟨stream.move 1, ?_⟩
    cases hcourse : stream.course with
    | nil =>
      have hmove : (stream.move 1).course = [] := by rw [course_move h, hcourse, List.tail_nil]
      rw [hcourse] at heq
      rw [stops_nil hcourse, stops_nil hmove, ← heq]
      refine ⟨rfl, hwithin, rfl, ?_⟩
      intro stop hstop
      cases hstop
    | cons first rest =>
      rw [hcourse, List.head?_cons] at heq
      have hfirst : first ≠ "" := by
        intro hfirst
        apply hne
        rw [← heq, hfirst]
      rw [stops_cons h hcourse, if_neg hfirst, ← heq]
      refine ⟨rfl, hwithin, rfl, ?_⟩
      intro stop hstop
      cases hstop
      rfl

theorem fulfil_next {token : Option String} {after : TokenStream} (h : stream.next = .ok (token, after))
    : stream.fulfil .next = (.ok (.token token), after) := by
  rw [fulfil, h]
  rfl

theorem stops_afterNext (h : -stream.size ≤ stream.position) (count : Nat)
    : -(stream.afterNext count).size ≤ (stream.afterNext count).position
        ∧ (stream.afterNext count).stops = stream.stops.drop count := by
  induction count generalizing stream with
  | zero => exact ⟨h, rfl⟩
  | succ count ih =>
    rcases next_stops h with ⟨after, hnext, hwithin, hstops, _⟩
    rw [afterNext, fulfil_next hnext]
    rw [← List.drop_tail, ← hstops]
    exact ih hwithin

theorem nthNext_eq (h : -stream.size ≤ stream.position) (count : Nat)
    : ∃ after, stream.nthNext count = (.ok (.token (filled stream.course)[count]?), after)
        ∧ ∀ stop, stream.stops[count]? = some stop → after.position = stop.2 + 1 := by
  rcases stops_afterNext h count with ⟨hwithin, hstops⟩
  rcases next_stops hwithin with ⟨after, hnext, _, _, hposition⟩
  rw [hstops, List.head?_drop] at hnext hposition
  refine ⟨after, ?_, hposition⟩
  rw [nthNext, fulfil_next hnext, ← map_stops, List.getElem?_map]

theorem stops_of_nonneg (h : 0 ≤ stream.position)
    : stream.stops
        =
      ((stream.rest.zipIdx stream.position.toNat).filter (·.1 ≠ "")).map
        fun entry => (entry.1, (entry.2 : Int)) := by
  have hplaced : placed stream.position stream.rest
      = (stream.rest.zipIdx stream.position.toNat).map fun entry => (entry.1, (entry.2 : Int)) := by
    rw [← placed_eq_zipIdx, Int.toNat_of_nonneg h]
  rw [stops, course_of_nonneg h, hplaced, List.filter_map]
  rfl

theorem next_of_token_error {fault : Fault} (h : stream.token stream.position = .error fault)
    : stream.next = .error fault := by
  fun_cases next stream with
  | case1 other heq =>
    rw [h] at heq
    cases heq
    rfl
  | case2 heq =>
    rw [h] at heq
    cases heq
  | case3 token _ heq =>
    rw [h] at heq
    cases heq

theorem fulfil_next_beforeStart (h : stream.position < -stream.size)
    : stream.fulfil .next = (.error .beforeStart, stream) := by
  have htoken : stream.token stream.position = .error .beforeStart := by
    rw [token, if_neg (by omega), if_neg (by omega), if_neg (by omega)]
  rw [fulfil, next_of_token_error htoken]
  rfl

theorem nthNext_beforeStart (h : stream.position < -stream.size) (count : Nat)
    : stream.nthNext count = (.error .beforeStart, stream) := by
  have hafter : stream.afterNext count = stream := by
    induction count with
    | zero => rfl
    | succ count ih => rw [afterNext, fulfil_next_beforeStart h, ih]
  rw [nthNext, hafter, fulfil_next_beforeStart h]

/--
Requests for the next token give the tokens that are left and not empty, each one once and in their order,
and then always none. Each time the cursor comes to stand one place behind the token. From a place below
zero the tokens from there on come first, and then all of them. Farther below there is only an error, and
the cursor stays where it is.
-/
theorem nthNext_enumerates (stream : TokenStream) (count : Nat)
    : let asked := stream.nthNext count
      (0 ≤ stream.position →
        asked.1 = .ok (.token (filled stream.rest)[count]?)
          ∧ ∀ token index,
            ((stream.rest.zipIdx stream.position.toNat).filter (·.1 ≠ ""))[count]? = some (token, index) →
            asked.1 = .ok (.token (some token)) ∧ asked.2.position = index + 1)
        ∧ (-stream.size ≤ stream.position → stream.position < 0 →
          asked.1 = .ok (.token (filled stream.rest ++ filled stream.tokens.toList)[count]?))
        ∧ (stream.position < -stream.size → asked = (.error .beforeStart, stream)) := by
  intro asked
  refine ⟨?_, ?_, fun h => nthNext_beforeStart h count⟩
  . intro hpos
    have hwithin : -stream.size ≤ stream.position := by omega
    rcases nthNext_eq hwithin count with ⟨after, hasked, hposition⟩
    rw [course_of_nonneg hpos] at hasked
    rw [show asked = _ from hasked]
    refine ⟨rfl, ?_⟩
    intro token index hentry
    have hstop : stream.stops[count]? = some (token, (index : Int)) := by
      rw [stops_of_nonneg hpos, List.getElem?_map, hentry]
      rfl
    have htoken : (filled stream.rest)[count]? = some token := by
      rw [← course_of_nonneg hpos, ← map_stops, List.getElem?_map, hstop]
      rfl
    exact ⟨by rw [htoken], hposition _ hstop⟩
  . intro hwithin hneg
    rcases nthNext_eq hwithin count with ⟨after, hasked, _⟩
    rw [course_of_neg hneg, filled_append] at hasked
    rw [show asked = _ from hasked]

theorem nthNext_enumerates_twice
    : (nthNext ⟨#["", "a", "", "", "b", ""], 1⟩ 1).1 = .ok (.token (some "b"))
      ∧ (nthNext ⟨#["", "a", "", "", "b", ""], 1⟩ 1).2.position = 5
      ∧ (nthNext ⟨#["", "a", "", "", "b", ""], 1⟩ 7).1 = .ok (.token none)
      ∧ (nthNext ⟨#["", "a", "", "", "b", ""], -2⟩ 1).1 = .ok (.token (some "a"))
      ∧ nthNext ⟨#["", "a", "", "", "b", ""], -7⟩ 3
        = (.error .beforeStart, ⟨#["", "a", "", "", "b", ""], -7⟩) := by
  have hleft (count : Nat) := (nthNext_enumerates ⟨#["", "a", "", "", "b", ""], 1⟩ count).1 (by decide)
  have hbehind := (hleft 1).2 "b" 4 rfl
  have hbelow := (nthNext_enumerates ⟨#["", "a", "", "", "b", ""], -2⟩ 1).2.1 (by decide) (by decide)
  have hbefore := (nthNext_enumerates ⟨#["", "a", "", "", "b", ""], -7⟩ 3).2.2 (by decide)
  exact ⟨hbehind.1, hbehind.2, (hleft 7).1, hbelow, hbefore⟩

end TokenStream
end TokenGrammar
