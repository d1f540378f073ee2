import TokenGrammar.Numeral
import TokenGrammar.Value

/-!
This module contains the two textual forms of a value: the written form, which quotes texts and shows
the structure of sequences, and the plain form, in which a text stands for itself. A value has neither
of them if some integer in it has more digits than may be written.
-/

namespace TokenGrammar
namespace Value

/--
The texts with a comma and a space between neighbours.
-/
def commaSeparated (items : List String) : String :=
  ", ".intercalate items

mutual

/--
The written form of a value.
-/
def written : Value → String
  | .null => "None"
  | .bool b => if b then "True" else "False"
  | .number n => n.write
  | .text s => Text.quoted s
  | .list items => "[" ++ commaSeparated (writtenItems items) ++ "]"
  | .tuple [item] => "(" ++ item.written ++ ",)"
  | .tuple items => "(" ++ commaSeparated (writtenItems items) ++ ")"
  | .dict entries => "\x7b" ++ commaSeparated (writtenEntries entries) ++ "\x7d"
  | .node kind children =>
    "Node(" ++ Text.quoted kind ++ ", [" ++ commaSeparated (writtenItems children) ++ "])"
  | .front items => "FrontNode([" ++ commaSeparated (writtenItems items) ++ "])"

/--
The written forms of the items of a sequence.
-/
def writtenItems : List Value → List String
  | [] => []
  | item :: items => item.written :: writtenItems items

/--
The written forms of the entries of a dictionary.
-/
def writtenEntries : List (String × Value) → List String
  | [] => []
  | (key, value) :: entries => (Text.quoted key ++ ": " ++ value.written) :: writtenEntries entries

end

mutual

/--
Whether some integer in a value has more digits than may be written.
-/
def unwritable : Value → Bool
  | .number (.int n) => Numeral.isOverlong n
  | .list items | .tuple items | .node _ items | .front items => someUnwritable items
  | .dict entries => entryUnwritable entries
  | .null | .bool _ | .number (.float _) | .text _ => false

/--
Whether there is such an integer in the items of a sequence.
-/
def someUnwritable : List Value → Bool
  | [] => false
  | item :: items => item.unwritable || someUnwritable items

/--
Whether there is such an integer in the entries of a dictionary.
-/
def entryUnwritable : List (String × Value) → Bool
  | [] => false
  | (_, value) :: entries => value.unwritable || entryUnwritable entries

end

/--
The plain form of a value.
-/
def plain : Value → String
  | .text s => s
  | value => value.written

mutual

/--
The text of a tree: a sequence becomes its items in parentheses with a space between neighbours, any
other value its plain form.
-/
def treeText : Value → String
  | .list items | .tuple items | .node _ items | .front items =>
    "(" ++ " ".intercalate (treeTexts items) ++ ")"
  | value => value.plain

/--
The texts of several trees.
-/
def treeTexts : List Value → List String
  | [] => []
  | item :: items => item.treeText :: treeTexts items

end

mutual

/--
Whether two values are equal. Numbers are compared by value, with a truth value as 0 or 1; sequences
are equal only to sequences of their own kind with equal items, labelled nodes only under equal
labels; the order of a dictionary's entries does not count.
-/
def same : Value → Value → Bool
  | .null, .null => true
  | .bool a, .bool b => a == b
  | .bool a, .number n | .number n, .bool a => n.sameValue (.int a.toInt)
  | .number a, .number b => a.sameValue b
  | .text a, .text b => a == b
  | .list as, .list bs | .tuple as, .tuple bs | .front as, .front bs => sameItems as bs
  | .node k as, .node l bs => k == l && sameItems as bs
  | .dict as, .dict bs => as.length == bs.length && sameEntries as bs
  | _, _ => false

/--
Whether two lists have equal items in the same places.
-/
def sameItems : List Value → List Value → Bool
  | [], [] => true
  | a :: as, b :: bs => same a b && sameItems as bs
  | _, _ => false

/--
Whether every entry of the first dictionary has an equal one in the second.
-/
def sameEntries : List (String × Value) → List (String × Value) → Bool
  | [], _ => true
  | (key, a) :: as, bs =>
    (match bs.lookup key with
      | some b => same a b
      | none => false) && sameEntries as bs

end

end Value
end TokenGrammar
