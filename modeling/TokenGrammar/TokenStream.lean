import TokenGrammar.Fault

/-!
This module contains token streams: a fixed sequence of tokens with a cursor. Streams that share their
tokens have cursors of their own, so an alternative is tried on one and dropped without a trace. An
empty token is a token like any other, except that `next` and `peek` step over it.
-/

namespace TokenGrammar

/--
A sequence of tokens with a cursor, which may stand before the first token or behind the last one.
-/
structure TokenStream where
  tokens : Array String
  position : Int := 0

namespace TokenStream

/--
The number of tokens, wherever the cursor stands.
-/
def size (stream : TokenStream) : Nat := stream.tokens.size

/--
The token at an index, `none` behind the last token. An index below zero counts from the end; below
the first token there is nothing to be read.
-/
def token (stream : TokenStream) (index : Int) : Except Fault (Option String) :=
  if index ≥ stream.size then .ok none
  else if index ≥ 0 then .ok stream.tokens[index.toNat]?
  else if index + stream.size ≥ 0 then .ok stream.tokens[(index + stream.size).toNat]?
  else .error .beforeStart

/--
Move the cursor by a number of tokens.
-/
def move (stream : TokenStream) (count : Int) : TokenStream :=
  { stream with position := stream.position + count }

/--
Move the cursor to the first token.
-/
def rewind (stream : TokenStream) : TokenStream :=
  { stream with position := 0 }

/--
The token at the cursor, with the cursor moved over it, even behind the last token.
-/
def read (stream : TokenStream) : Except Fault (Option String × TokenStream) :=
  match stream.token stream.position with
  | .ok token => .ok (token, stream.move 1)
  | .error fault => .error fault

/--
The next token that is not empty, with the cursor moved over it and the empty ones before it.
-/
def next (stream : TokenStream) : Except Fault (Option String × TokenStream) :=
  match _h : stream.token stream.position with
  | .error fault => .error fault
  | .ok (some "") => (stream.move 1).next
  | .ok token => .ok (token, stream.move 1)
termination_by (stream.size - stream.position).toNat
decreasing_by
  have inside : stream.position < stream.size := by
    simp only [token] at _h
    split at _h
    · simp at _h
    · omega
  simp only [move, size] at *
  omega

/--
The token `offset` places ahead of the cursor.
-/
def ahead (stream : TokenStream) (offset : Int) : Except Fault (Option String) :=
  if offset < 0 then .error .lookBack else stream.token (stream.position + offset)

/--
The number of empty tokens among the next `count` ones.
-/
def emptyAhead (stream : TokenStream) : Nat → Except Fault Nat
  | 0 => .ok 0
  | count + 1 => do
    let before ← stream.emptyAhead count
    let token ← stream.ahead count
    return if token == some "" then before + 1 else before

/--
The token `offset` places ahead of the cursor when the empty tokens are stepped over that stand up to
that place.
-/
def peek (stream : TokenStream) (offset : Int) : Except Fault (Option String) := do
  let skipped ← stream.emptyAhead (offset + 1).toNat
  stream.ahead (offset + skipped)

/--
Whether no token is left.
-/
def atEnd (stream : TokenStream) : Bool :=
  stream.position ≥ stream.size

/--
The tokens from the cursor on. A cursor below zero counts from the end, at most back to the start.
-/
def rest (stream : TokenStream) : List String :=
  let start := if stream.position < 0 then stream.position + stream.size else stream.position
  stream.tokens.toList.drop start.toNat

/--
The written form of a stream.
-/
def written (stream : TokenStream) : String :=
  "TokenStream(" ++ (Value.texts stream.tokens.toList).written ++
    s!", position={stream.position})"

/--
The stream of a list of tokens. Every one of them must be a text.
-/
def ofItems (items : List Value) : Except Fault TokenStream := do
  let tokens ← go 0 items
  return { tokens := tokens.toArray }
where
  go (index : Nat) : List Value → Except Fault (List String)
  | [] => .ok []
  | .text s :: items => do return s :: (← go (index + 1) items)
  | item :: _ => .error (.badToken item.typeName index)

end TokenStream
end TokenGrammar
