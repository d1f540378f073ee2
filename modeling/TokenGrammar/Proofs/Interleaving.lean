import TokenGrammar.Proofs.Cursor
import TokenGrammar.Proofs.Group
import TokenGrammar.Source

/-!
This module contains streams that are derived from one another while all of them are in use. Requests to
the streams of a group come in any order, and new streams join the group on the way, as duplicates of one
that is there or as new streams over its tokens. Whatever the others are asked, a stream gives the answers
that it would give by itself, and its cursor is where it would be.
-/

namespace TokenGrammar

/--
What a stream was asked, and its answer.
-/
abbrev StreamExchange := StreamRequest × Except Fault StreamAnswer

/--
What a group was asked, and its answer.
-/
abbrev GroupExchange := GroupRequest × Except Fault StreamAnswer

/--
Fulfil requests to a stream one after another, whether some of them fail or not.
-/
def TokenStream.fulfilAll (stream : TokenStream) :
    List StreamRequest → List StreamExchange × TokenStream
  | [] => ([], stream)
  | request :: requests =>
    let (answer, after) := stream.fulfil request
    let (exchanges, last) := after.fulfilAll requests
    ((request, answer) :: exchanges, last)

theorem TokenStream.fulfilAll_cons (stream : TokenStream) (request : StreamRequest)
    (requests : List StreamRequest)
    : stream.fulfilAll (request :: requests)
        =
      ((request, (stream.fulfil request).1) :: ((stream.fulfil request).2.fulfilAll requests).1,
        ((stream.fulfil request).2.fulfilAll requests).2) := rfl

theorem TokenStream.tokens_fulfil (stream : TokenStream) (request : StreamRequest)
    : (stream.fulfil request).2.tokens = stream.tokens := by
  cases request with
  | next =>
    unfold fulfil
    cases hnext : stream.next with
    | error fault => rfl
    | ok taken => exact tokens_of_next hnext
  | read =>
    unfold fulfil read
    cases stream.token stream.position with
    | error fault => rfl
    | ok token => rfl
  | _ => rfl

namespace GroupRequest

/--
The place of the stream that a request is about.
-/
def place : GroupRequest → Nat
  | .ask place _ | .duplicate place | .restart place => place

/--
How many streams join the group.
-/
def joining : GroupRequest → Nat
  | .ask .. => 0
  | .duplicate _ | .restart _ => 1

/--
The stream that joins the group, by the one that it is derived from: a duplicate, or a stream that is
made with the other one as its source.
-/
def derived? (asked : GroupRequest) (origin : TokenStream) : Option TokenStream :=
  match asked with
  | .ask .. => none
  | .duplicate _ => some origin
  | .restart _ => (TokenStream.ofSource .absent (.stream origin)).toOption

end GroupRequest

namespace StreamGroup

/--
Fulfil requests to a group one after another, provided that the streams which they are about exist.
-/
def fulfilAll? (group : StreamGroup) :
    List GroupRequest → Option (List GroupExchange × StreamGroup)
  | [] => some ([], group)
  | asked :: requests => do
    let (answer, next) ← group.fulfil? asked
    let (exchanges, last) ← next.fulfilAll? requests
    return ((asked, answer) :: exchanges, last)

/--
Where there are so many streams at first, each request is about a stream that exists when its turn comes.
-/
def Addressed : (count : Nat) → List GroupRequest → Prop
  | _, [] => True
  | count, asked :: requests => asked.place < count ∧ Addressed (count + asked.joining) requests

instance Addressed.decidable : (count : Nat) → (requests : List GroupRequest) →
    Decidable (Addressed count requests)
  | _, [] => .isTrue trivial
  | count, asked :: requests =>
    have := decidable (count + asked.joining) requests
    inferInstanceAs (Decidable (asked.place < count ∧ Addressed (count + asked.joining) requests))

/--
The requests to the stream at a place.
-/
def ownRequests (place : Nat) (requests : List GroupRequest) : List StreamRequest :=
  requests.filterMap fun
    | .ask other request => if other = place then some request else none
    | _ => none

/--
The exchanges with the stream at a place.
-/
def own (place : Nat) (exchanges : List GroupExchange) : List StreamExchange :=
  exchanges.filterMap fun
    | (.ask other request, answer) => if other = place then some (request, answer) else none
    | _ => none

/--
Between the one group and the other one, each stream of the former has had the exchanges that it has
by itself when only its own requests are made, and its cursor has come to the same place.
-/
def Alone (group : StreamGroup) (requests : List GroupRequest) (exchanges : List GroupExchange)
    (last : StreamGroup) : Prop :=
  ∀ place stream, group.stream? place = some stream →
    ∃ final, last.stream? place = some final
      ∧ stream.fulfilAll (ownRequests place requests) = (own place exchanges, final)

/--
What becomes of a group that fulfils a request. The tokens and all streams stay as they are but for the
stream that is asked something, which answers as it does by itself. A stream that joins the group is
derived from the one that the request is about.
-/
structure Advances (group : StreamGroup) (asked : GroupRequest) (answer : Except Fault StreamAnswer)
    (next : StreamGroup) : Prop where
  fulfilled : group.fulfil? asked = some (answer, next)
  tokens : next.tokens = group.tokens
  count : next.cursors.length = group.cursors.length + asked.joining
  others : ∀ place < group.cursors.length, (∀ request, asked ≠ .ask place request) →
    next.stream? place = group.stream? place
  answers : ∀ place request stream, asked = .ask place request → group.stream? place = some stream →
    answer = (stream.fulfil request).1 ∧ next.stream? place = some (stream.fulfil request).2
  joins : ∀ origin, group.stream? asked.place = some origin →
    next.stream? group.cursors.length = asked.derived? origin

variable {group next last : StreamGroup} {exchanges : List GroupExchange} {asked : GroupRequest}
  {answer : Except Fault StreamAnswer}

theorem advances_ask {place : Nat} {stream : TokenStream} (h : group.stream? place = some stream)
    (request : StreamRequest)
    : group.Advances (.ask place request) (stream.fulfil request).1
        (group.put place (stream.fulfil request).2.position) where
  fulfilled := fulfil?_ask h request
  tokens := rfl
  count := List.length_set
  others := by
    intro other _ hother
    apply stream?_put_ne
    rintro rfl
    exact hother request rfl
  answers := by
    rintro _ _ other ⟨⟩ hother
    rw [h] at hother
    cases hother
    exact ⟨rfl, stream?_put h (stream.tokens_fulfil request)⟩
  joins := by
    intro _ _
    have hlength : (group.put place (stream.fulfil request).2.position).cursors.length
        = group.cursors.length := List.length_set
    rw [← hlength]
    apply stream?_length

theorem advances_join {stream : TokenStream} {cursor : Int}
    (hjoining : asked.joining = 1)
    (hfulfilled : group.fulfil? asked = some (.ok (.joined group.cursors.length), group.add cursor))
    (hplace : group.stream? asked.place = some stream)
    (hderived : asked.derived? stream = some { stream with position := cursor })
    : group.Advances asked (.ok (.joined group.cursors.length)) (group.add cursor) where
  fulfilled := hfulfilled
  tokens := rfl
  count := by
    rw [hjoining]
    exact List.length_append
  others := fun other hother _ => group.keeps_add cursor other hother
  answers := by
    rintro place request _ rfl
    cases hjoining
  joins := by
    intro origin horigin
    rw [hplace] at horigin
    cases horigin
    rw [hderived, tokens_of_stream? hplace]
    unfold stream? add
    rw [List.getElem?_concat_length]
    rfl

/--
A group fulfils a request if the stream exists that the request is about.
-/
theorem exists_advances (h : asked.place < group.cursors.length)
    : ∃ answer next, group.Advances asked answer next := by
  rcases exists_stream? h with ⟨stream, hplace⟩
  cases asked with
  | ask place request => exact ⟨_, _, advances_ask hplace request⟩
  | duplicate place => exact ⟨_, _, advances_join rfl (fulfil?_duplicate hplace) hplace rfl⟩
  | restart place => exact ⟨_, _, advances_join rfl (fulfil?_restart hplace) hplace rfl⟩

theorem own_ask (place : Nat) (request : StreamRequest) (answer : Except Fault StreamAnswer)
    (requests : List GroupRequest) (exchanges : List GroupExchange)
    : ownRequests place (.ask place request :: requests) = request :: ownRequests place requests
        ∧ own place ((.ask place request, answer) :: exchanges)
          = (request, answer) :: own place exchanges := by
  unfold ownRequests own
  rw [List.filterMap_cons, List.filterMap_cons]
  simp

theorem own_of_ne {place : Nat} (h : ∀ request, asked ≠ .ask place request)
    (answer : Except Fault StreamAnswer) (requests : List GroupRequest)
    (exchanges : List GroupExchange)
    : ownRequests place (asked :: requests) = ownRequests place requests
        ∧ own place ((asked, answer) :: exchanges) = own place exchanges := by
  unfold ownRequests own
  rw [List.filterMap_cons, List.filterMap_cons]
  cases asked with
  | ask other request =>
    have hne : other ≠ place := by
      rintro rfl
      exact h request rfl
    simp [hne]
  | _ => exact ⟨rfl, rfl⟩

theorem Alone.nil (group : StreamGroup) : group.Alone [] [] group := by
  intro place stream hplace
  exact ⟨stream, hplace, rfl⟩

theorem Alone.cons {requests : List GroupRequest} (h : group.Advances asked answer next)
    (hlater : next.Alone requests exchanges last)
    : group.Alone (asked :: requests) ((asked, answer) :: exchanges) last := by
  intro place stream hplace
  by_cases hasked : ∃ request, asked = .ask place request
  . rcases hasked with ⟨request, rfl⟩
    rcases h.answers place request stream rfl hplace with ⟨rfl, hnext⟩
    rcases hlater place _ hnext with ⟨final, hfinal, hrun⟩
    refine ⟨final, hfinal, ?_⟩
    rcases own_ask place request (stream.fulfil request).1 requests exchanges with ⟨hrequests, hown⟩
    rw [hrequests, hown, TokenStream.fulfilAll_cons, hrun]
  . have hne : ∀ request, asked ≠ .ask place request := by
      intro request heq
      exact hasked ⟨request, heq⟩
    rw [← h.others place (lt_of_stream? hplace) hne] at hplace
    rcases own_of_ne hne answer requests exchanges with ⟨hrequests, hown⟩
    rw [hrequests, hown]
    exact hlater place stream hplace

theorem Advances.fulfilAll?_cons (h : group.Advances asked answer next) {requests : List GroupRequest}
    (hlater : next.fulfilAll? requests = some (exchanges, last))
    : group.fulfilAll? (asked :: requests) = some ((asked, answer) :: exchanges, last) := by
  rw [fulfilAll?, h.fulfilled]
  simp only [Option.bind_eq_bind, Option.bind_some, hlater]
  rfl

/--
A group fulfils all requests, and its streams do not interfere with one another.
-/
theorem exists_alone {requests : List GroupRequest} (h : Addressed group.cursors.length requests)
    : ∃ exchanges last, group.fulfilAll? requests = some (exchanges, last)
        ∧ group.Alone requests exchanges last := by
  induction requests generalizing group with
  | nil => exact ⟨[], group, rfl, .nil group⟩
  | cons asked requests ih =>
    rcases h with ⟨hplace, hlater⟩
    rcases exists_advances hplace with ⟨answer, next, hnext⟩
    rw [← hnext.count] at hlater
    rcases ih hlater with ⟨exchanges, last, hlast, halone⟩
    exact ⟨(asked, answer) :: exchanges, last, hnext.fulfilAll?_cons hlast, halone.cons hnext⟩

/--
The requests that come first are fulfilled as if there were no others.
-/
theorem exists_earlier {earlier later : List GroupRequest}
    (h : Addressed group.cursors.length (earlier ++ later))
    (hlast : group.fulfilAll? (earlier ++ later) = some (exchanges, last))
    : ∃ before now after, group.fulfilAll? earlier = some (before, now)
        ∧ now.tokens = group.tokens ∧ Addressed now.cursors.length later
        ∧ now.fulfilAll? later = some (after, last) ∧ exchanges = before ++ after := by
  induction earlier generalizing group exchanges with
  | nil => exact ⟨[], group, exchanges, rfl, rfl, h, hlast, rfl⟩
  | cons asked earlier ih =>
    rw [List.cons_append] at h hlast
    rcases h with ⟨hplace, hlater⟩
    rcases exists_advances hplace with ⟨answer, next, hnext⟩
    rw [← hnext.count] at hlater
    rcases exists_alone hlater with ⟨others, last', hothers, _⟩
    rw [hnext.fulfilAll?_cons hothers] at hlast
    cases hlast
    rcases ih hlater hothers with ⟨before, now, after, hnow, htokens, haddressed, hafter, rfl⟩
    rw [hnext.tokens] at htokens
    exact ⟨_, now, after, hnext.fulfilAll?_cons hnow, htokens, haddressed, hafter, rfl⟩

/--
Streams that are derived from one another do not interfere. From a single stream on all requests are
fulfilled, in any order, whether some of them fail or not. Each one leaves the tokens and all other
streams as they are. From the beginning, or from the request with which it has joined the others in the
state of the stream that it is derived from, each stream has the exchanges and comes to the place that it
has by itself when only its own requests are made.
-/
theorem interleaved_alone (stream : TokenStream) {requests : List GroupRequest}
    (h : Addressed 1 requests)
    : ∃ exchanges last, (single stream).fulfilAll? requests = some (exchanges, last)
        ∧ (single stream).Alone requests exchanges last
        ∧ ∀ earlier asked later, requests = earlier ++ asked :: later →
          ∃ before now answer next after, exchanges = before ++ (asked, answer) :: after
            ∧ (single stream).fulfilAll? earlier = some (before, now)
            ∧ now.tokens = stream.tokens
            ∧ now.Advances asked answer next
            ∧ next.Alone later after last := by
  have hsingle : Addressed (single stream).cursors.length requests := h
  rcases exists_alone hsingle with ⟨exchanges, last, hlast, halone⟩
  refine ⟨exchanges, last, hlast, halone, ?_⟩
  rintro earlier asked later rfl
  rcases exists_earlier hsingle hlast with ⟨before, now, rest, hnow, htokens, haddressed, hrest, rfl⟩
  rcases haddressed with ⟨hplace, hlater⟩
  rcases exists_advances hplace with ⟨answer, next, hnext⟩
  rw [← hnext.count] at hlater
  rcases exists_alone hlater with ⟨after, last', hafter, halone'⟩
  rw [hnext.fulfilAll?_cons hafter] at hrest
  cases hrest
  exact ⟨before, now, answer, next, after, rfl, hnow, htokens, hnext, halone'⟩

/--
Requests to a stream, to its duplicate and to a stream that is made from the duplicate. One of them goes
back before the first token, so that the next request to this stream fails.
-/
def derivedRequests : List GroupRequest :=
  [.ask 0 .next, .duplicate 0, .ask 1 .next, .restart 1, .ask 2 (.move (-9)), .ask 2 .next,
    .ask 0 (.peek (-1)), .ask 1 .read, .ask 2 .rewind, .ask 0 .read]

theorem interleaved_alone_derived
    : Addressed 1 derivedRequests
      ∧ ∃ exchanges last, (single ⟨#["a", "", "b"], 0⟩).fulfilAll? derivedRequests
          = some (exchanges, last)
        ∧ own 0 exchanges = [(.next, .ok (.token (some "a"))), (.peek (-1), .error .lookBack),
          (.read, .ok (.token (some "")))]
        ∧ last.stream? 0 = some ⟨#["a", "", "b"], 2⟩
        ∧ ∃ before answer after, exchanges = before ++ (.duplicate 0, answer) :: after
          ∧ own 1 after = [(.next, .ok (.token (some "b"))), (.read, .ok (.token none))]
          ∧ last.stream? 1 = some ⟨#["a", "", "b"], 4⟩ := by
  have haddressed : Addressed 1 derivedRequests := by decide
  have hfirst : (TokenStream.mk #["a", "", "b"] 0).fulfilAll (ownRequests 0 derivedRequests)
      = ([(.next, .ok (.token (some "a"))), (.peek (-1), .error .lookBack),
          (.read, .ok (.token (some "")))], ⟨#["a", "", "b"], 2⟩) := by with_unfolding_all rfl
  have hsecond : (TokenStream.mk #["a", "", "b"] 1).fulfilAll (ownRequests 1 derivedRequests)
      = ([(.next, .ok (.token (some "b"))), (.read, .ok (.token none))], ⟨#["a", "", "b"], 4⟩) := by
    with_unfolding_all rfl
  have hjoin : (single ⟨#["a", "", "b"], 0⟩).fulfilAll? [.ask 0 .next]
      = some ([(.ask 0 .next, .ok (.token (some "a")))], ⟨#["a", "", "b"], [1]⟩) := by
    with_unfolding_all rfl
  rcases interleaved_alone ⟨#["a", "", "b"], 0⟩ haddressed with ⟨exchanges, last, hlast, halone, hsplit⟩
  rcases hsplit [.ask 0 .next] (.duplicate 0) _ rfl with
    ⟨before, now, answer, next, after, hexchanges, hnow, _, hnext, hderived⟩
  rw [hjoin] at hnow
  cases hnow
  rcases halone 0 ⟨#["a", "", "b"], 0⟩ rfl with ⟨final, hfinal, hrun⟩
  rcases Prod.mk.inj (hfirst.symm.trans hrun) with ⟨hown, rfl⟩
  rcases hderived 1 ⟨#["a", "", "b"], 1⟩ (hnext.joins ⟨#["a", "", "b"], 1⟩ rfl) with
    ⟨final', hfinal', hrun'⟩
  rcases Prod.mk.inj (hsecond.symm.trans hrun') with ⟨hown', rfl⟩
  exact ⟨haddressed, exchanges, last, hlast, hown.symm, hfinal, _, answer, after, hexchanges,
    hown'.symm, hfinal'⟩

end StreamGroup
end TokenGrammar
