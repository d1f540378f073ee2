import TokenGrammar.Number
import TokenGrammar.Text.Quoted

/-!
This module contains the values that a parse works with: what actions return, what nodes hold, and
what a caller hands over where a text or a list of texts is expected.
-/

namespace TokenGrammar

/--
A dynamically typed value. Lists, tuples, labelled nodes and front nodes are four kinds of sequence;
the entries of a dictionary stand in the order in which their keys were first assigned.
-/
inductive Value where
  | null
  | bool (b : Bool)
  | number (n : Number)
  | text (s : String)
  | list (items : List Value)
  | tuple (items : List Value)
  | dict (entries : List (String × Value))
  | node (kind : String) (children : List Value)
  | front (items : List Value)
  deriving Inhabited

namespace Value

/--
An integer value.
-/
def int (n : Int) : Value := .number (.int n)

/--
The list of the given texts.
-/
def texts (items : List String) : Value := .list (items.map .text)

/--
The name of a value's type in messages.
-/
def typeName : Value → String
  | .null => "NoneType"
  | .bool _ => "bool"
  | .number (.int _) => "int"
  | .number (.float _) => "float"
  | .text _ => "str"
  | .list _ => "list"
  | .tuple _ => "tuple"
  | .dict _ => "dict"
  | .node .. => "Node"
  | .front _ => "FrontNode"

/--
The items that going through a value yields: the items of a sequence, the characters of a text, the
keys of a dictionary. Other values yield nothing at all.
-/
def items? : Value → Option (List Value)
  | .text s => some (s.toList.map fun c => .text c.toString)
  | .list items | .tuple items | .node _ items | .front items => some items
  | .dict entries => some (entries.map fun entry => .text entry.1)
  | .null | .bool _ | .number _ => none

/--
The text that a value is, if it is one.
-/
def text? : Value → Option String
  | .text s => some s
  | _ => none

mutual

/--
The name of the type for which a value cannot be a key: lists, dictionaries and labelled nodes cannot,
and so cannot a tuple with one of them in it.
-/
def unhashable? : Value → Option String
  | .list items => some (Value.list items).typeName
  | .dict entries => some (Value.dict entries).typeName
  | .node kind children => some (Value.node kind children).typeName
  | .tuple items => someUnhashable? items
  | .null | .bool _ | .number _ | .text _ | .front _ => none

/--
The first such name among the items of a tuple.
-/
def someUnhashable? : List Value → Option String
  | [] => none
  | item :: items => item.unhashable? <|> someUnhashable? items

end

/--
A dictionary with one more assignment: a key that is already there keeps its place and takes the new
value.
-/
def assign (entries : List (String × Value)) (key : String) (value : Value) :
    List (String × Value) :=
  if entries.any (·.1 == key) then
    entries.map fun entry => if entry.1 == key then (key, value) else entry
  else entries ++ [(key, value)]

/--
The dictionary that a list of assignments builds from nothing.
-/
def dictOf (assignments : List (String × Value)) : Value :=
  .dict (assignments.foldl (fun entries entry => assign entries entry.1 entry.2) [])

end Value
end TokenGrammar
