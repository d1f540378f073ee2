import TokenGrammar.TokenStream

/-!
This module contains what a caller may hand over to be parsed, and how tokens are made of it. A text
is split; anything else has to yield the tokens itself.
-/

namespace TokenGrammar

/--
What a caller hands over where something callable is expected.
-/
inductive Callable (α : Type) where
  | absent
  /-- Something that cannot be called. -/
  | unfit (given : Value)
  | function (f : α)

/--
A function that cuts a text into pieces. It is a function of the text alone, so it does the same with a
text each time. What it returns has to be a value to go through.
-/
abbrev Splitter := String → Except Fault Value

/--
The words of a text.
-/
def Splitter.words : Splitter :=
  fun text => .ok (.texts (Text.words text))

/--
What a caller hands over to be parsed.
-/
inductive Source where
  | text (text : String)
  | stream (stream : TokenStream)
  /-- Something to go through that yields the items and then ends or fails. -/
  | iterable (typeName : String) (items : List Value) (failure : Option Fault)
  /-- Something that cannot be gone through. -/
  | other (typeName : String)

namespace Source

/--
The source that a value is.
-/
def ofValue (value : Value) : Source :=
  match value, value.items? with
  | .text s, _ => .text s
  | _, some items => .iterable value.typeName items none
  | _, none => .other value.typeName

end Source

namespace TokenStream

/--
The stream of the pieces of a text.
-/
def ofText (splitter : Callable Splitter) (text : String) : Except Fault TokenStream := do
  let pieces ← match splitter with
    | .absent => Splitter.words text
    | .unfit given => .error (.notCallable given.typeName)
    | .function split => split text
  match pieces.items? with
  | some items => ofItems items
  | none => .error (.notIterable pieces.typeName)

/--
A new stream over the tokens of a source, with the cursor at the first token. A source that turns out
to be of the wrong type while it is gone through counts as one that cannot be gone through.
-/
def ofSource (splitter : Callable Splitter) : Source → Except Fault TokenStream
  | .text text => ofText splitter text
  | .stream stream => .ok stream.rewind
  | .iterable _ items none => ofItems items
  | .iterable typeName _ (some fault) =>
    .error (if fault.kind == .type then .badSource typeName else fault)
  | .other typeName => .error (.badSource typeName)

/--
The stream that a source is parsed from: a stream is taken from its cursor on.
-/
def openSource (splitter : Callable Splitter) : Source → Except Fault TokenStream
  | .stream stream => .ok stream
  | source => ofSource splitter source

end TokenStream
end TokenGrammar
