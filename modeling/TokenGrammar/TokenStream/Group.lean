import TokenGrammar.TokenStream

/-!
This module contains groups of streams over the same tokens. The tokens are shared and never change;
every stream of a group has a cursor of its own, which only requests to this stream move.
-/

namespace TokenGrammar

/--
What may be asked of a stream.
-/
inductive StreamRequest where
  | next
  | read
  | move (count : Int)
  | rewind
  | peek (offset : Int)
  | ahead (offset : Int)
  | atEnd
  | rest
  | tokens
  | size
  | written
  deriving DecidableEq, Repr

/--
What a stream answers.
-/
inductive StreamAnswer where
  | token (token : Option String)
  | tokens (tokens : List String)
  | truth (holds : Bool)
  | count (size : Nat)
  | text (text : String)
  /-- The cursor has been put elsewhere, and there is nothing to tell. -/
  | moved
  /-- A new stream has joined the group at the given place. -/
  | joined (place : Nat)
  deriving DecidableEq, Repr

namespace TokenStream

/--
Fulfil a request. The stream stays as it is when the request fails.
-/
def fulfil (stream : TokenStream) : StreamRequest → Except Fault StreamAnswer × TokenStream
  | .next => taken stream.next
  | .read => taken stream.read
  | .move count => (.ok .moved, stream.move count)
  | .rewind => (.ok .moved, stream.rewind)
  | .peek offset => (.token <$> stream.peek offset, stream)
  | .ahead offset => (.token <$> stream.ahead offset, stream)
  | .atEnd => (.ok (.truth stream.atEnd), stream)
  | .rest => (.ok (.tokens stream.rest), stream)
  | .tokens => (.ok (.tokens stream.tokens.toList), stream)
  | .size => (.ok (.count stream.size), stream)
  | .written => (.ok (.text stream.written), stream)
where
  taken : Except Fault (Option String × TokenStream) → Except Fault StreamAnswer × TokenStream
    | .ok (token, stream) => (.ok (.token token), stream)
    | .error fault => (.error fault, stream)

end TokenStream

/--
Streams over the same tokens, by the places of their cursors.
-/
structure StreamGroup where
  tokens : Array String
  cursors : List Int

/--
What may be asked of a group: to pass a request on to a stream of it, or to take in one more stream
whose cursor starts where that of another stream stands, or at the first token.
-/
inductive GroupRequest where
  | ask (place : Nat) (request : StreamRequest)
  | duplicate (place : Nat)
  | restart (place : Nat)
  deriving DecidableEq, Repr

namespace StreamGroup

/--
The group of a single stream.
-/
def single (stream : TokenStream) : StreamGroup := ⟨stream.tokens, [stream.position]⟩

/--
The stream at a place of the group.
-/
def stream? (group : StreamGroup) (place : Nat) : Option TokenStream :=
  group.cursors[place]?.map fun cursor => ⟨group.tokens, cursor⟩

/--
The group with one more stream.
-/
def join (group : StreamGroup) (cursor : Int) : Except Fault StreamAnswer × StreamGroup :=
  (.ok (.joined group.cursors.length), { group with cursors := group.cursors ++ [cursor] })

/--
Fulfil a request, provided that the stream it is about exists.
-/
def fulfil? (group : StreamGroup) :
    GroupRequest → Option (Except Fault StreamAnswer × StreamGroup)
  | .ask place request => (group.stream? place).map fun stream =>
    match stream.fulfil request with
    | (answer, stream) =>
      (answer, { group with cursors := group.cursors.set place stream.position })
  | .duplicate place => (group.stream? place).map fun stream => group.join stream.position
  | .restart place => (group.stream? place).map fun stream => group.join stream.rewind.position

end StreamGroup
end TokenGrammar
