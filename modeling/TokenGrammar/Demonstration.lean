import TokenGrammar.Calculator
import TokenGrammar.Json.Reader

/-!
This module contains a demonstration of the two example grammars: what each of them makes of a few
texts, as lines to be printed.
-/

namespace TokenGrammar
namespace Demonstration

/--
The lines of a text.
-/
def linesOf (text : String) : List String :=
  text.splitOn "\n"

/--
What is shown of a result, be it a value or an error.
-/
def shown : Except Fault Value → String
  | .ok value => value.plain
  | .error fault => fault.message

/--
The expressions that are calculated.
-/
def expressions : List String :=
  ["1 + 2 * 3", "-1 + 4", "2 * 3 + 4", "2 * (3 + 4)", "8 - 3 - 2", "24 / 4 / 3"]

/--
The lines about the calculator.
-/
def calculatorLines : List String :=
  expressions.map fun text => text ++ " -> " ++ shown (Calculator.evaluate {} text)

/--
The documents that are read.
-/
def documents : List String :=
  ["null", "true", "\x22hello world\x22", "-12.34e+2", "[]", "[1, 2, 3]",
    "[ \x22a\x22, null, true, 3.14 ]", "\x7b\x7d",
    "\x7b\x22a\x22: 1, \x22b\x22: [true, false], \x22c\x22: \x7b\x22x\x22: \x22y\x22\x7d\x7d",
    "\n        \x7b\n          \x22name\x22: \x22Alice\x22,\n          \x22age\x22: 30,\n"
      ++ "          \x22tags\x22: [\x22dev\x22, \x22py\x22],\n"
      ++ "          \x22prefs\x22: \x7b\x22dark\x22: true\x7d\n        \x7d\n        "]

/--
The lines about the reader of documents.
-/
def documentLines : List String :=
  documents.flatMap fun text =>
    linesOf ("INPUT: " ++ Text.trimBlanks text)
      ++ ["PARSED: " ++ shown (Json.load {} text), String.ofList (List.replicate 40 '-')]

end Demonstration
end TokenGrammar
