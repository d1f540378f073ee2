import TokenGrammar.Action

/-!
This module contains ready-made actions under names of their own, among them some that call the grammar
while it is in use.
-/

namespace TokenGrammar
namespace Action

/--
The integer that a value is or writes.
-/
def toInteger : Value → Except Fault Int
  | .text text => match Numeral.readInteger text with
    | .ok n => .ok n
    | .error fault => .error (.numeral fault)
  | .number (.int n) => .ok n
  | .bool b => .ok b.toInt
  | value => .error (.raised .type
      ("int() argument must be a string, a bytes-like object or a real number, not '"
        ++ value.typeName ++ "'"))

/--
The integers among the items of a node, added up.
-/
def sumOf (items : List Value) : Int :=
  items.foldl (fun sum item => match item with
    | .number (.int n) => sum + n
    | _ => sum) 0

/--
What an action failed with, if it is an error of the grammar's own family: its name and its wording.
Other errors are passed on.
-/
def report (fault : Fault) : Script :=
  match fault.kind with
  | .grammar family => .done (.text (family.name ++ ": " ++ fault.message))
  | _ => .fail fault

/--
Try to declare a rule and tell what came of it.
-/
def tryToDeclare (name options : Value) (next : Value → Script) : Script :=
  .declare name options .absent fun
    | .ok _ => next (.text "allowed")
    | .error fault => match report fault with
      | .done told => next told
      | script => script

/--
The value that shows a match, or the lack of one.
-/
def matchValue : Option Match → Value
  | none => .null
  | some found => .dict [("matches", .texts found.tokens), ("result", found.result)]

/--
Match tokens against the rule `T`.
-/
def parseAsT (tokens : List String) (next : Value → Script) : Script :=
  .parseAs (.text "T") (.ofValue (.texts tokens)) fun
    | .ok found => next (matchValue found)
    | .error fault => .fail fault

/--
The ready-made action with the given name.
-/
def stock? : String → Option Action
  | "log" => some identity
  | "tag" => some fun node name => .done (.list (.text name :: node.items))
  | "pair" => some fun node name => .done (.tuple [.text name, .list node.items])
  | "dict" => some fun node name => .done (.dict [(name, .list node.items)])
  | "text" => some fun node _ => .done (.text node.toValue.treeText)
  | "count" => some fun node _ => .done (.int node.items.length)
  | "sum" => some fun node _ => .done (.int (sumOf node.items))
  | "int" => some (.onNode fun node => do return .int (← toInteger (← node.item 0)))
  | "null" => some fun _ _ => .done .null
  | "empty" => some fun _ _ => .done (.list [])
  | "first" => some (.onNode (·.item 0))
  | "reverse" => some fun node _ => .done (.list node.items.reverse)
  | "mutate" => some (.onNode fun node => do return (← node.add (.text "!")).toValue)
  | "relabel" => some fun node name => .done (node.relabel name).toValue
  | "raise" => some fun _ name => .fail (.raised .value ("action of " ++ name))
  | "raise_parse" => some fun _ name => .fail (.raised (.grammar .parse) ("action of " ++ name))
  | "raise_depth" => some fun _ _ => .fail .exhausted
  | "add" => some fun node _ => .declare (.text "T") (.text "\x22b") .absent fun
    | .ok _ => .done node.toValue
    | .error fault => .fail fault
  | "add_caught" => some fun _ _ => tryToDeclare (.text "T") (.text "\x22b") .done
  | "add_invalid" => some fun _ _ => tryToDeclare (.text "") (.int 3) .done
  | "nested" => some fun node _ =>
    parseAsT ["b", "c"] fun found => .done (.list [node.toValue, found])
  | "nested_add" => some fun _ _ =>
    parseAsT ["b"] fun found =>
      tryToDeclare (.text "T") (.text "\x22b") fun told => .done (.list [found, told])
  | "names" => some fun _ _ => .names fun names =>
    .done (.list (names.map .text ++ [.int names.length]))
  | _ => none

end Action
end TokenGrammar
