import TokenGrammar.Json.Scalar
import TokenGrammar.Json.Token
import TokenGrammar.Matcher

/-!
This module contains a reader of JSON documents as an example of a grammar with actions. Members of
objects and elements of arrays nest to the right; their actions flatten the nest to a list. How single
tokens are decoded is left open: any decoder makes a reader.
-/

namespace TokenGrammar
namespace Json

/--
What turns a string, a number or a constant into a value, or reports that it cannot.
-/
abbrev Decoder := String → Except Fault Value

/--
The value of a string, a number or a constant, each of which is a single token.
-/
def Decoder.scalar (decode : Decoder) (node : Node) : Except Fault Value := do
  match ← node.item 0 with
  | .text token => decode token
  | value => throw (.badOperand value.typeName)

/--
The list of an item alone, or of an item, a comma and a list of further items.
-/
def flatten (node : Node) : Except Fault Value :=
  match node.items with
  | [first, _, .list rest] => .ok (.list (first :: rest))
  | [_, _, value] => .error (.badOperand value.typeName)
  | _ => do return .list [← node.item 0]

/--
The pair of a key and a value with a colon between them.
-/
def pair (node : Node) : Except Fault Value := do
  return .tuple [← node.item 0, ← node.item 2]

/--
The entry of a dictionary that a pair is.
-/
def entry : Value → Except Fault (String × Value)
  | .tuple [.text key, value] => .ok (key, value)
  | value => .error (.badOperand value.typeName)

/--
The dictionary of the members between two braces; without members it is empty.
-/
def object (node : Node) : Except Fault Value :=
  match node.items with
  | [_, .list members, _] => do return .dictOf (← members.mapM entry)
  | [_, value, _] => .error (.badOperand value.typeName)
  | _ => .ok (.dict [])

/--
The list of the elements between two brackets; without elements it is empty.
-/
def array (node : Node) : Except Fault Value :=
  match node.items with
  | [_, elements, _] => .ok elements
  | _ => .ok (.list [])

/--
Declare a rule of JSON documents.
-/
def rule (name : String) (options : List String) (action : Node → Except Fault Value) : Run Unit :=
  Grammar.declare (.text name) (.texts options) (.function (.onNode action))

namespace Decoder

/--
Declare the rules of JSON documents.
-/
def declareRules (decode : Decoder) : Run Unit := do
  rule "value" ["object", "array", "string", "number", "constant"] (·.item 0)
  rule "string" ["/\x22(?:[^\x22\\\\]|\\\\.)*\x22/"] decode.scalar
  rule "number" ["/-?(?:0|[1-9]\\d*)(?:\\.\\d+)?(?:[eE][+-]?\\d+)?/"] decode.scalar
  rule "constant" ["\x22true", "\x22false", "\x22null"] decode.scalar
  rule "object" ["\x22\x7b \x22\x7d", "\x22\x7b members \x22\x7d"] object
  rule "members" ["pair \x22, members", "pair"] flatten
  rule "pair" ["string \x22: value"] pair
  rule "array" ["\x22[ \x22]", "\x22[ elements \x22]"] array
  rule "elements" ["value \x22, elements", "value"] flatten

/--
The grammar of JSON documents.
-/
def grammar (decode : Decoder) : Grammar :=
  let bare : Grammar := { splitter := .function fun text => .ok (.texts (tokens text)) }
  (decode.declareRules { grammar := bare }).2.grammar

/--
Match a text against the grammar. Input may be left over.
-/
def parse (decode : Decoder) (settings : Settings) (text : String) : Except Fault (Option Match) :=
  (Grammar.parse settings (.text text) { grammar := decode.grammar }).1

/--
The value of a document, which has to be the whole text.
-/
def load (decode : Decoder) (settings : Settings) (text : String) : Except Fault Value := do
  match ← decode.parse settings text with
  | none => throw (.notDocument text)
  | some found =>
    if found.tokens.length != (tokens text).length then throw (.trailing found.tokens)
    return found.result

end Decoder

/--
The grammar of JSON documents with the values of `decodeScalar`.
-/
def grammar : Grammar := Decoder.grammar decodeScalar

/--
Match a text against the grammar. Input may be left over.
-/
def parse (settings : Settings) (text : String) : Except Fault (Option Match) :=
  Decoder.parse decodeScalar settings text

/--
The value of a document, which has to be the whole text.
-/
def load (settings : Settings) (text : String) : Except Fault Value :=
  Decoder.load decodeScalar settings text

end Json
end TokenGrammar
